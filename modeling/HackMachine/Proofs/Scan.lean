import Mathlib.Data.List.Induction

/-!
# Passes that stop at the first failure

Both passes of the assembler take the lines of a program one after the other and stop at the first
that fails.  `scan` is that loop with the step as a parameter, so what is true of every such loop is
proved once:

* `scan_invariant`: what every successful step keeps holds of the state that a scan ends in.
* `exists_scan_take_of_none`, `exists_scan_take_of_some`: every element that was taken was taken in
  the state that the elements before it lead to, and a scan that fails does so at one element.
* `ScanFaults.not_bad_of_none`, `ScanFaults.exists_first_bad_of_some`: if the faults of a step are
  described by a relation on places, a scan succeeds only when no place is at fault, and otherwise
  reports the first that is.
* `scan_related`, `scan_map`: two scans over corresponding elements whose steps correspond end
  alike.

The invariant speaks of the elements already taken, as a list.  At place `i` of `xs` these are
`xs.take i`.
-/

namespace HackMachine

/-- Take elements one after the other, up to the first that fails. -/
def scan {σ α ε : Type} (step : σ → α → σ × Option ε) : σ → List α → σ × Option ε
  | s, [] => (s, none)
  | s, x :: xs =>
    match step s x with
    | (s, some e) => (s, some e)
    | (s, none) => scan step s xs

section Scan

variable {σ α ε : Type} {step : σ → α → σ × Option ε}

@[simp] theorem scan_nil (s : σ) : scan step s [] = (s, none) := rfl

theorem scan_cons_of_none {s s₁ : σ} {x : α} (h : step s x = (s₁, none)) (xs : List α) :
    scan step s (x :: xs) = scan step s₁ xs := by
  rw [scan, h]

theorem scan_cons_of_some {s s₁ : σ} {x : α} {e : ε} (h : step s x = (s₁, some e))
    (xs : List α) : scan step s (x :: xs) = (s₁, some e) := by
  rw [scan, h]

/-- A scan that succeeds has succeeded on every first part. -/
theorem exists_scan_of_append_none {s s' : σ} {xs ys : List α}
    (h : scan step s (xs ++ ys) = (s', none)) :
    ∃ s₁, scan step s xs = (s₁, none) ∧ scan step s₁ ys = (s', none) := by
  induction xs generalizing s with
  | nil => exact ⟨s, rfl, h⟩
  | cons x xs ih =>
    rcases hx : step s x with ⟨s₂, _ | e⟩
    · rw [List.cons_append, scan_cons_of_none hx] at h
      rw [scan_cons_of_none hx]
      exact ih h
    · rw [List.cons_append, scan_cons_of_some hx] at h
      exact absurd (Prod.mk.inj h).2 (by simp)

/-- In a scan that succeeds, the element at each place was taken without a fault. -/
theorem exists_scan_take_of_none {s s' : σ} {xs : List α} (h : scan step s xs = (s', none))
    {i : Nat} {x : α} (hx : xs[i]? = some x) :
    ∃ s₁ s₂, scan step s (xs.take i) = (s₁, none) ∧ step s₁ x = (s₂, none) := by
  obtain ⟨hi, rfl⟩ := List.getElem?_eq_some_iff.1 hx
  rw [← List.take_append_drop i xs, List.drop_eq_getElem_cons hi] at h
  obtain ⟨s₁, htake, hrest⟩ := exists_scan_of_append_none h
  rcases hstep : step s₁ xs[i] with ⟨s₂, _ | e⟩
  · exact ⟨s₁, s₂, htake, hstep⟩
  · rw [scan_cons_of_some hstep] at hrest
    exact absurd (Prod.mk.inj hrest).2 (by simp)

/-- A scan that fails has succeeded up to some place, and failed there. -/
theorem exists_scan_take_of_some {s s' : σ} {xs : List α} {e : ε}
    (h : scan step s xs = (s', some e)) :
    ∃ i x s₁, xs[i]? = some x ∧ scan step s (xs.take i) = (s₁, none) ∧
      step s₁ x = (s', some e) := by
  induction xs generalizing s with
  | nil => exact absurd (Prod.mk.inj h).2 (by simp)
  | cons x xs ih =>
    rcases hx : step s x with ⟨s₂, _ | e'⟩
    · rw [scan_cons_of_none hx] at h
      obtain ⟨i, y, s₁, hy, htake, hstep⟩ := ih h
      refine ⟨i + 1, y, s₁, by simpa using hy, ?_, hstep⟩
      rw [List.take_succ_cons, scan_cons_of_none hx, htake]
    · rw [scan_cons_of_some hx] at h
      exact ⟨0, x, s, rfl, rfl, hx.trans h⟩

/-! ## Invariants -/

/-- What every successful step keeps holds after a scan that succeeds. -/
theorem scan_invariant (Inv : List α → σ → Prop) {s s' : σ} (start : Inv [] s)
    (keep : ∀ done x s₁ s₂, Inv done s₁ → step s₁ x = (s₂, none) → Inv (done ++ [x]) s₂)
    {xs : List α} (h : scan step s xs = (s', none)) : Inv xs s' := by
  induction xs using List.reverseRecOn generalizing s' with
  | nil =>
    rw [← (Prod.mk.inj h).1]
    exact start
  | append_singleton xs x ih =>
    obtain ⟨s₁, hxs, hx⟩ := exists_scan_of_append_none h
    rcases hstep : step s₁ x with ⟨s₂, _ | e⟩
    · rw [scan_cons_of_none hstep, scan_nil] at hx
      rw [← (Prod.mk.inj hx).1]
      exact keep xs x s₁ s₂ (ih hxs) hstep
    · rw [scan_cons_of_some hstep] at hx
      exact absurd (Prod.mk.inj hx).2 (by simp)

/-! ## Two scans side by side -/

/-- If the steps of two scans keep a relation between the states and fail alike, so do the scans. -/
theorem scan_related {σ' α' ε' : Type} {step' : σ' → α' → σ' × Option ε'} {R : σ → σ' → Prop}
    {f : α → α'} {g : ε → ε'}
    (keep : ∀ s s' x t e, R s s' → step s x = (t, e) →
      ∃ t', step' s' (f x) = (t', e.map g) ∧ R t t')
    {s t : σ} {s' : σ'} (start : R s s') {xs : List α} {e : Option ε}
    (h : scan step s xs = (t, e)) : ∃ t', scan step' s' (xs.map f) = (t', e.map g) ∧ R t t' := by
  induction xs generalizing s s' with
  | nil =>
    obtain ⟨rfl, rfl⟩ := Prod.mk.inj h
    exact ⟨s', rfl, start⟩
  | cons x xs ih =>
    rcases hx : step s x with ⟨s₁, _ | e₁⟩
    · obtain ⟨s₁', hx', next⟩ := keep s s' x s₁ none start hx
      rw [scan_cons_of_none hx] at h
      rw [List.map_cons, scan_cons_of_none hx']
      exact ih next h
    · obtain ⟨s₁', hx', next⟩ := keep s s' x s₁ (some e₁) start hx
      rw [scan_cons_of_some hx] at h
      obtain ⟨rfl, rfl⟩ := Prod.mk.inj h
      exact ⟨s₁', by rw [List.map_cons, scan_cons_of_some hx']; rfl, next⟩

/-- If a map of the states takes the steps of one scan to those of another, it takes the scans to
each other. -/
theorem scan_map {σ' α' ε' : Type} {step' : σ' → α' → σ' × Option ε'} {r : σ → σ'} {f : α → α'}
    {g : ε → ε'} (keep : ∀ s x, step' (r s) (f x) = Prod.map r (Option.map g) (step s x))
    (s : σ) (xs : List α) :
    scan step' (r s) (xs.map f) = Prod.map r (Option.map g) (scan step s xs) := by
  have same : ∀ s s' x t e, s' = r s → step s x = (t, e) →
      ∃ t', step' s' (f x) = (t', e.map g) ∧ t' = r t := by
    rintro s _ x t e rfl taken
    exact ⟨r t, by rw [keep, taken]; rfl, rfl⟩
  obtain ⟨t', ran, rfl⟩ := scan_related (R := fun s s' => s' = r s) same rfl
    (rfl : scan step s xs = ((scan step s xs).1, (scan step s xs).2))
  exact ran

/-! ## Faults by place -/

/-- A description of the faults of a scan over `xs`: the relation `Bad` names the places at fault
and what is wrong there, and the step agrees with it in every state that the invariant allows. -/
structure ScanFaults (step : σ → α → σ × Option ε) (s : σ) (xs : List α)
    (Inv : List α → σ → Prop) (Bad : Nat → ε → Prop) : Prop where
  start : Inv [] s
  keep : ∀ done x s₁ s₂, Inv done s₁ → step s₁ x = (s₂, none) → Inv (done ++ [x]) s₂
  inside : ∀ i e, Bad i e → ∃ x, xs[i]? = some x
  sound : ∀ i x s₁ s₂, xs[i]? = some x → Inv (xs.take i) s₁ → step s₁ x = (s₂, none) →
    ∀ e, ¬ Bad i e
  complete : ∀ i x s₁ s₂ e, xs[i]? = some x → Inv (xs.take i) s₁ → step s₁ x = (s₂, some e) →
    Bad i e

namespace ScanFaults

variable {s s' : σ} {xs : List α} {Inv : List α → σ → Prop} {Bad : Nat → ε → Prop}

/-- A scan that succeeds has no place at fault. -/
theorem not_bad_of_none (d : ScanFaults step s xs Inv Bad) (h : scan step s xs = (s', none))
    (i : Nat) (e : ε) : ¬ Bad i e := by
  intro bad
  obtain ⟨x, hx⟩ := d.inside i e bad
  obtain ⟨s₁, s₂, htake, hstep⟩ := exists_scan_take_of_none h hx
  exact d.sound i x s₁ s₂ hx (scan_invariant Inv d.start d.keep htake) hstep e bad

/-- A scan that fails has taken the elements before the first place at fault, and reports the fault
of that place. -/
theorem exists_first_bad_of_some (d : ScanFaults step s xs Inv Bad) {e : ε}
    (h : scan step s xs = (s', some e)) :
    ∃ i x s₁, xs[i]? = some x ∧ scan step s (xs.take i) = (s₁, none) ∧
      step s₁ x = (s', some e) ∧ Bad i e ∧ ∀ j < i, ∀ e', ¬ Bad j e' := by
  obtain ⟨i, x, s₁, hx, htake, hstep⟩ := exists_scan_take_of_some h
  have bad := d.complete i x s₁ s' e hx (scan_invariant Inv d.start d.keep htake) hstep
  refine ⟨i, x, s₁, hx, htake, hstep, bad, ?_⟩
  intro j hj e' earlier
  obtain ⟨y, hy⟩ := d.inside j e' earlier
  -- the scan of the first `i` elements succeeded, and place `j` is one of these
  have hy' : (xs.take i)[j]? = some y := by rw [List.getElem?_take_of_lt hj, hy]
  obtain ⟨s₂, s₃, htake', hstep'⟩ := exists_scan_take_of_none htake hy'
  rw [List.take_take, Nat.min_eq_left (Nat.le_of_lt hj)] at htake'
  exact d.sound j y s₂ s₃ hy (scan_invariant Inv d.start d.keep htake') hstep' e' earlier

end ScanFaults
end Scan
end HackMachine
