import HackMachine.Command.Session
import HackMachine.Proofs.Machine.Step
import Mathlib.Data.List.Basic

/-!
# The order of settings

The settings of a run give memory cells their values at the start.  They are a map from names to
values, and are carried out one after the other, so the question is whether the order matters.

It does, for two reasons.  A cell has several names: its address with any number of leading zeros,
and perhaps a predefined symbol or two.  Settings that use different names of one cell replace each
other's value, and the last one wins.  And several settings may be refused, for different reasons;
then the first of them is reported.

## What an order decides

`initialiseAll_eq` says what settings do in a given order: the first that is refused decides, and if
none is, all are carried out.  `Orderless` are the settings for which this is the same in every
order, and `settings_order_iff` shows that there are no others.

* `Orderless.initialiseAll_eq`: the order does not matter for such settings.
* `refusals_of_same`: if the order does not matter, a refused setting may as well come first.
* `values_of_same`: if the order does not matter, any setting may as well come last.
* `settings_order_matters`: two settings of one cell, and two that are refused.
-/

namespace HackMachine

open Command

namespace Machine

/-! ## One setting -/

/-- Why a setting is refused, if it is. -/
def refusal? (m : Machine) (setting : Text × Int) : Option Failure :=
  match memoryAddress setting.1 with
  | .error failure => some failure
  | .ok address =>
    if isMapped address then none else some (.machine (.unmappedWrite address m.pc))

/-- The machine with the value of a setting in its cell, if the setting has one. -/
def assign (m : Machine) (setting : Text × Int) : Machine :=
  match memoryAddress setting.1 with
  | .error _ => m
  | .ok address => m.store address (UInt16.ofInt setting.2)

section Setting

variable {m : Machine} {setting : Text × Int}

theorem refusal?_of_error {failure : Failure} (found : memoryAddress setting.1 = .error failure) :
    m.refusal? setting = some failure := by
  rw [refusal?, found]

theorem refusal?_of_address {address : Word} (found : memoryAddress setting.1 = .ok address) :
    m.refusal? setting =
      if isMapped address then none else some (.machine (.unmappedWrite address m.pc)) := by
  rw [refusal?, found]

theorem initialise_of_refused {failure : Failure} (refused : m.refusal? setting = some failure) :
    m.initialise setting = .error failure := by
  cases found : memoryAddress setting.1 with
  | error why =>
    cases (refusal?_of_error found).symm.trans refused
    rw [initialise, found]
  | ok address =>
    rw [refusal?_of_address found] at refused
    split_ifs at refused with mapped
    cases refused
    simp [initialise, found, write, mapped, Except.mapError]

/-- A setting that is accepted denotes a cell. -/
theorem exists_address_of_accepted (accepted : m.refusal? setting = none) :
    ∃ address, memoryAddress setting.1 = .ok address ∧ isMapped address = true := by
  cases found : memoryAddress setting.1 with
  | error why => cases (refusal?_of_error found).symm.trans accepted
  | ok address =>
    rw [refusal?_of_address found] at accepted
    split_ifs at accepted with mapped
    exact ⟨address, rfl, mapped⟩

theorem initialise_of_accepted (accepted : m.refusal? setting = none) :
    m.initialise setting = .ok (m.assign setting) := by
  obtain ⟨address, found, mapped⟩ := exists_address_of_accepted accepted
  simp [initialise, assign, found, write, mapped, Except.mapError]

theorem assign_of_address {address : Word} (found : memoryAddress setting.1 = .ok address)
    (m : Machine) : m.assign setting = m.store address (UInt16.ofInt setting.2) := by
  rw [assign, found]

end Setting

/-- Carrying out a setting does not move the program counter. -/
theorem pc_assign (m : Machine) (setting : Text × Int) : (m.assign setting).pc = m.pc := by
  unfold assign
  split
  · rfl
  · rw [store_eq]

/-- Whether a setting is refused, and why, does not depend on those before it. -/
theorem refusal?_assign (m : Machine) (setting : Text × Int) :
    (m.assign setting).refusal? = m.refusal? := by
  funext other
  rw [refusal?, refusal?, pc_assign]

/-- Settings of different cells, and settings with the same value, can be exchanged. -/
theorem assign_comm (m : Machine) (first second : Text × Int)
    (same : memoryAddress first.1 = memoryAddress second.1 →
      UInt16.ofInt first.2 = UInt16.ofInt second.2) :
    (m.assign first).assign second = (m.assign second).assign first := by
  cases found : memoryAddress first.1 with
  | error why =>
    have nothing : ∀ m : Machine, m.assign first = m := fun m => by rw [assign, found]
    rw [nothing, nothing]
  | ok address =>
    cases found' : memoryAddress second.1 with
    | error why =>
      have nothing : ∀ m : Machine, m.assign second = m := fun m => by rw [assign, found']
      rw [nothing, nothing]
    | ok address' =>
      simp only [assign_of_address found, assign_of_address found']
      by_cases here : address = address'
      · obtain rfl := here
        rw [same (found.trans found'.symm)]
      · exact m.store_comm here _ _

/-! ## Settings in a given order -/

/-- The first setting that is refused decides; if none is, all of them are carried out. -/
theorem initialiseAll_eq (m : Machine) (settings : List (Text × Int)) :
    m.initialiseAll settings =
      match settings.findSome? m.refusal? with
      | some failure => .error failure
      | none => .ok (settings.foldl assign m) := by
  induction settings generalizing m with
  | nil => rfl
  | cons setting rest ih =>
    rw [List.findSome?_cons, initialiseAll, List.foldlM_cons]
    cases refused : m.refusal? setting with
    | some failure =>
      rw [initialise_of_refused refused]
      rfl
    | none =>
      rw [initialise_of_accepted refused, ← m.refusal?_assign setting]
      exact ih (m.assign setting)

/-- The last of the settings has its value in its cell. -/
theorem cell_foldl_assign_concat {setting : Text × Int} {address : Word}
    (found : memoryAddress setting.1 = .ok address) (mapped : isMapped address = true) (m : Machine)
    (settings : List (Text × Int)) :
    ((settings ++ [setting]).foldl assign m).cell address = UInt16.ofInt setting.2 := by
  rw [List.foldl_append, List.foldl_cons, List.foldl_nil, assign_of_address found,
    cell_store _ mapped, if_pos rfl]

/-! ## Settings in any order -/

/-- Settings that may be carried out in any order: all that are refused are refused for the same
reason, and if none is, those of the same cell have the same value. -/
structure Orderless (m : Machine) (settings : List (Text × Int)) : Prop where
  refusals : ∀ first ∈ settings, ∀ second ∈ settings, (m.refusal? first).isSome →
    (m.refusal? second).isSome → m.refusal? first = m.refusal? second
  values : (∀ setting ∈ settings, m.refusal? setting = none) →
    ∀ first ∈ settings, ∀ second ∈ settings, memoryAddress first.1 = memoryAddress second.1 →
      UInt16.ofInt first.2 = UInt16.ofInt second.2

section Order

variable {m : Machine} {settings order : List (Text × Int)}

/-- If all that are refused are refused for the same reason, this reason is found in any order. -/
theorem Orderless.findSome?_eq (h : m.Orderless settings) (perm : order.Perm settings) :
    order.findSome? m.refusal? = settings.findSome? m.refusal? := by
  cases found : settings.findSome? m.refusal? with
  | none =>
    rw [List.findSome?_eq_none_iff] at found ⊢
    exact fun setting hmem => found setting (perm.mem_iff.1 hmem)
  | some failure =>
    obtain ⟨first, hfirst, refused⟩ := List.exists_of_findSome?_eq_some found
    cases found' : order.findSome? m.refusal? with
    | none =>
      have accepted := List.findSome?_eq_none_iff.1 found' first (perm.mem_iff.2 hfirst)
      cases accepted.symm.trans refused
    | some failure' =>
      obtain ⟨second, hsecond, refused'⟩ := List.exists_of_findSome?_eq_some found'
      have same := h.refusals first hfirst second (perm.mem_iff.1 hsecond)
        (by rw [refused]; rfl) (by rw [refused']; rfl)
      rw [← refused, ← refused', same]

/-- The order does not matter for settings that are orderless. -/
theorem Orderless.initialiseAll_eq (h : m.Orderless settings) (perm : order.Perm settings) :
    m.initialiseAll order = m.initialiseAll settings := by
  rw [Machine.initialiseAll_eq, Machine.initialiseAll_eq, h.findSome?_eq perm]
  cases found : settings.findSome? m.refusal? with
  | some failure => rfl
  | none =>
    have values := h.values (List.findSome?_eq_none_iff.1 found)
    have final : order.foldl assign m = settings.foldl assign m := by
      refine perm.foldl_eq' (fun first hfirst second hsecond m' => ?_) m
      exact m'.assign_comm first second
        (values first (perm.mem_iff.1 hfirst) second (perm.mem_iff.1 hsecond))
    rw [final]

variable (same : ∀ order, order.Perm settings → m.initialiseAll order = m.initialiseAll settings)
include same

/-- If the order does not matter, all refused settings are refused for the same reason: each of them
could be the first. -/
theorem refusals_of_same {setting : Text × Int} (hmem : setting ∈ settings) {failure : Failure}
    (refused : m.refusal? setting = some failure) : m.initialiseAll settings = .error failure := by
  obtain ⟨before, behind, rfl⟩ := List.append_of_mem hmem
  rw [← same (setting :: (before ++ behind)) List.perm_middle.symm, Machine.initialiseAll_eq,
    List.findSome?_cons_of_isSome (by rw [refused]; rfl), refused]

/-- If the order does not matter and none is refused, each setting has its value in its cell: each
of them could be the last. -/
theorem values_of_same (accepted : ∀ setting ∈ settings, m.refusal? setting = none)
    {setting : Text × Int} (hmem : setting ∈ settings) {address : Word}
    (found : memoryAddress setting.1 = .ok address) :
    (settings.foldl assign m).cell address = UInt16.ofInt setting.2 := by
  have all : ∀ {order : List (Text × Int)}, order.Perm settings →
      m.initialiseAll order = .ok (order.foldl assign m) := by
    intro order perm
    have none : order.findSome? m.refusal? = none :=
      List.findSome?_eq_none_iff.2 fun other hother => accepted other (perm.mem_iff.1 hother)
    rw [Machine.initialiseAll_eq, none]
  have mapped : isMapped address = true := by
    obtain ⟨address', found', mapped⟩ := exists_address_of_accepted (accepted setting hmem)
    cases found.symm.trans found'
    exact mapped
  obtain ⟨before, behind, split⟩ := List.append_of_mem hmem
  have perm : ((before ++ behind) ++ [setting]).Perm settings := by
    rw [split, List.append_assoc]
    exact (List.perm_append_singleton setting behind).append_left before
  have final := (all perm).symm.trans ((same _ perm).trans (all (List.Perm.refl settings)))
  rw [← Except.ok.inj final]
  exact cell_foldl_assign_concat found mapped m (before ++ behind)

end Order

/-- The order in which settings are carried out does not matter, for the memory they give and for
the failure that is reported, exactly if they are orderless.  The whole run is then the same in any
order. -/
theorem settings_order_iff (words : Array Word) (settings : List (Text × Int)) :
    ((∀ order, order.Perm settings →
        (load words).initialiseAll order = (load words).initialiseAll settings) ↔
      (load words).Orderless settings) ∧
    ((load words).Orderless settings → ∀ order, order.Perm settings →
      ∀ (fuel : Nat) (path : Text) (options : RunOptions),
        runWords fuel path { options with set := order } words =
          runWords fuel path { options with set := settings } words) := by
  refine ⟨⟨fun same => ⟨?_, ?_⟩, fun h order perm => h.initialiseAll_eq perm⟩, ?_⟩
  · intro first hfirst second hsecond isRefused isRefused'
    obtain ⟨failure, refused⟩ := Option.isSome_iff_exists.1 isRefused
    obtain ⟨failure', refused'⟩ := Option.isSome_iff_exists.1 isRefused'
    have outcome := refusals_of_same same hfirst refused
    have outcome' := refusals_of_same same hsecond refused'
    rw [refused, refused', Except.error.inj (outcome.symm.trans outcome')]
  · intro accepted first hfirst second hsecond sameCell
    obtain ⟨address, found, -⟩ := exists_address_of_accepted (accepted first hfirst)
    rw [← values_of_same same accepted hfirst found,
      values_of_same same accepted hsecond (sameCell.symm.trans found)]
  · intro h order perm fuel path options
    unfold runWords
    rw [h.initialiseAll_eq perm]
    rfl

/-- Two names of one cell with values that are the same word, and another cell. -/
def harmless : List (Text × Int) :=
  [(Text.ascii "SP", 1), (Text.ascii "00", 65537), (Text.ascii "SCREEN", -1)]

theorem settings_order_iff_harmless :
    (load #[]).Orderless harmless ∧
      (load #[]).initialiseAll harmless.reverse = (load #[]).initialiseAll harmless := by
  have orderless : (load #[]).Orderless harmless := ⟨by decide, by decide⟩
  exact ⟨orderless, (settings_order_iff #[] harmless).1.2 orderless _ (List.reverse_perm harmless)⟩

/-- The order of settings with different names matters: for the memory, if two of them are names of
one cell, and for what is reported, if two of them are names of none. -/
theorem settings_order_matters :
    (∃ m m' : Machine,
      (load #[]).initialiseAll [(Text.ascii "R0", 1), (Text.ascii "SP", 2)] = .ok m ∧
      (load #[]).initialiseAll [(Text.ascii "SP", 2), (Text.ascii "R0", 1)] = .ok m' ∧
      m.cell 0 = 2 ∧ m'.cell 0 = 1) ∧
    (load #[]).initialiseAll [(Text.ascii "X", 1), (Text.ascii "Y", 1)] =
      .error (.memoryName (Text.ascii "X")) ∧
    (load #[]).initialiseAll [(Text.ascii "Y", 1), (Text.ascii "X", 1)] =
      .error (.memoryName (Text.ascii "Y")) := by
  have register : memoryAddress (Text.ascii "R0") = .ok 0 := rfl
  have pointer : memoryAddress (Text.ascii "SP") = .ok 0 := rfl
  refine ⟨⟨_, _, initialiseAll_eq _ _, initialiseAll_eq _ _, ?_, ?_⟩, rfl, rfl⟩
  · exact cell_foldl_assign_concat pointer rfl (load #[]) [(Text.ascii "R0", 1)]
  · exact cell_foldl_assign_concat register rfl (load #[]) [(Text.ascii "SP", 2)]

end Machine
end HackMachine
