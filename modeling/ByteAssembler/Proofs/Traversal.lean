/-
  Computations that may fail, and traversals that take such a step for every element of a list.
  A traversal succeeds exactly if all its steps do (`mapM_eq_ok_iff`), and it fails with the error
  of the first step that fails (`mapM_eq_error_iff`). Parsing, encoding and walking through
  directories are all of this form.
-/

namespace ByteAssembler

variable {ε α β : Type}

/-- A traversal whose steps all succeed has the values of the steps. -/
theorem mapM_eq_pure_map {m : Type → Type} [Monad m] [LawfulMonad m]
    {f : α → m β} {g : α → β} {xs : List α} (h : ∀ x ∈ xs, f x = pure (g x)) :
    xs.mapM f = pure (xs.map g) := by
  induction xs with
  | nil => exact List.mapM_nil
  | cons x xs ih =>
    have hx : f x = pure (g x) := h x List.mem_cons_self
    have hxs : xs.mapM f = pure (xs.map g) := ih fun y hy => h y (List.mem_cons_of_mem x hy)
    rw [List.mapM_cons, hx, hxs, pure_bind, pure_bind, List.map_cons]

theorem exists_mapM_eq_pure {m : Type → Type} [Monad m] [LawfulMonad m]
    {f : α → m β} {xs : List α} (h : ∀ x ∈ xs, ∃ y, f x = pure y) :
    ∃ ys, xs.mapM f = pure ys := by
  induction xs with
  | nil => exact ⟨[], List.mapM_nil⟩
  | cons x xs ih =>
    obtain ⟨y, hy⟩ := h x List.mem_cons_self
    obtain ⟨ys, hys⟩ := ih fun z hz => h z (List.mem_cons_of_mem x hz)
    refine ⟨y :: ys, ?_⟩
    rw [List.mapM_cons, hy, hys, pure_bind, pure_bind]

/-! ## Errors -/

theorem bind_eq_ok_iff {x : Except ε α} {f : α → Except ε β} {b : β} :
    x >>= f = .ok b ↔ ∃ a, x = .ok a ∧ f a = .ok b := by
  cases x with
  | error e => simp [bind, Except.bind]
  | ok a => simp [bind, Except.bind]

theorem exists_eq_ok_iff {x : Except ε α} : (∃ a, x = .ok a) ↔ ∀ e, x ≠ .error e := by
  cases x with
  | ok a => exact iff_of_true ⟨a, rfl⟩ fun _ h => by cases h
  | error e => exact iff_of_false (fun ⟨_, h⟩ => by cases h) fun h => h e rfl

theorem map_eq_error_iff {f : α → β} {x : Except ε α} {e : ε} :
    f <$> x = .error e ↔ x = .error e := by
  cases x with
  | ok a => exact iff_of_false (fun h => by cases h) fun h => by cases h
  | error e' =>
    have hmap : f <$> (.error e' : Except ε α) = .error e' := rfl
    rw [hmap, Except.error.injEq, Except.error.injEq]

/-- The steps of a traversal that succeeds. -/
theorem map_eq_of_mapM_eq_ok {f : α → Except ε β} {xs : List α} {ys : List β}
    (h : xs.mapM f = .ok ys) : xs.map f = ys.map .ok := by
  induction xs generalizing ys with
  | nil =>
    cases h
    rfl
  | cons x xs ih =>
    rw [List.mapM_cons] at h
    obtain ⟨y, hx, h⟩ := bind_eq_ok_iff.1 h
    obtain ⟨rest, hxs, h⟩ := bind_eq_ok_iff.1 h
    cases h
    rw [List.map_cons, List.map_cons, hx, ih hxs]

theorem mapM_eq_ok_iff {f : α → Except ε β} {xs : List α} {ys : List β} :
    xs.mapM f = .ok ys ↔ xs.map f = ys.map .ok := by
  refine ⟨map_eq_of_mapM_eq_ok, fun h => ?_⟩
  induction xs generalizing ys with
  | nil =>
    obtain rfl := List.map_eq_nil_iff.1 h.symm
    rfl
  | cons x xs ih =>
    obtain ⟨y, rest, rfl, hx, hxs⟩ := List.map_eq_cons_iff.1 h.symm
    rw [List.mapM_cons, ← hx, ih hxs.symm]
    rfl

/-- A traversal fails with the error of the first step that fails. -/
theorem mapM_eq_error_iff {f : α → Except ε β} {xs : List α} {e : ε} :
    xs.mapM f = .error e ↔
      ∃ (k : Nat) (x : α), xs[k]? = some x ∧ f x = .error e ∧
        ∀ (j : Nat) (y : α), j < k → xs[j]? = some y → ∀ e', f y ≠ .error e' := by
  induction xs with
  | nil =>
    refine iff_of_false (fun h => ?_) ?_
    · cases h
    · rintro ⟨k, x, hx, -⟩
      cases hx
  | cons x xs ih =>
    rw [List.mapM_cons]
    cases hx : f x with
    | error e' =>
      constructor
      · intro h
        cases h
        exact ⟨0, x, rfl, hx, fun j y hj => absurd hj (Nat.not_lt_zero j)⟩
      · rintro ⟨k, y, hy, he, hbefore⟩
        cases k with
        | zero =>
          obtain rfl := Option.some.inj hy
          rw [hx] at he
          exact congrArg Except.error (Except.error.inj he)
        | succ k => exact absurd hx (hbefore 0 x (Nat.succ_pos k) rfl e')
    | ok b =>
      have hrest : (Except.ok b >>= fun b => xs.mapM f >>= fun bs => pure (b :: bs)) = .error e ↔
          xs.mapM f = .error e := by
        cases xs.mapM f with
        | error e' => exact Iff.rfl
        | ok bs => exact iff_of_false (fun h => by cases h) fun h => by cases h
      rw [hrest, ih]
      constructor
      · rintro ⟨k, y, hy, he, hbefore⟩
        refine ⟨k + 1, y, hy, he, fun j z hj hz => ?_⟩
        cases j with
        | zero =>
          obtain rfl := Option.some.inj hz
          exact exists_eq_ok_iff.1 ⟨b, hx⟩
        | succ j => exact hbefore j z (Nat.lt_of_succ_lt_succ hj) hz
      · rintro ⟨k, y, hy, he, hbefore⟩
        cases k with
        | zero =>
          obtain rfl := Option.some.inj hy
          rw [hx] at he
          cases he
        | succ k =>
          exact ⟨k, y, hy, he, fun j z hj hz => hbefore (j + 1) z (Nat.succ_lt_succ hj) hz⟩

/-- The concatenation of what a traversal gives for the items that `pick` finds; the others count
as empty. -/
theorem flatten_mapM_filterMap {γ : Type} {f : β → Except ε (List γ)} {pick : α → Option β}
    {g : α → List γ} {xs : List α} (hsome : ∀ x ∈ xs, ∀ y, pick x = some y → f y = .ok (g x))
    (hnone : ∀ x ∈ xs, pick x = none → g x = []) :
    (·.flatten) <$> (xs.filterMap pick).mapM f = .ok (xs.flatMap g) := by
  induction xs with
  | nil => rfl
  | cons x xs ih =>
    have hrest := ih (fun y hy => hsome y (List.mem_cons_of_mem x hy))
      (fun y hy => hnone y (List.mem_cons_of_mem x hy))
    rw [List.filterMap_cons, List.flatMap_cons]
    cases hx : pick x with
    | none =>
      rw [hnone x List.mem_cons_self hx]
      exact hrest
    | some y =>
      dsimp only
      rw [List.mapM_cons, hsome x List.mem_cons_self y hx]
      cases hm : (xs.filterMap pick).mapM f with
      | error e =>
        rw [hm] at hrest
        cases hrest
      | ok rest =>
        rw [hm] at hrest
        exact congrArg (fun r => Except.ok (g x ++ r)) (Except.ok.inj hrest)

/-! ## Missing values -/

theorem map_eq_of_mapM_eq_some {f : α → Option β} {xs : List α} {ys : List β}
    (h : xs.mapM f = some ys) : xs.map f = ys.map some := by
  induction xs generalizing ys with
  | nil =>
    cases h
    rfl
  | cons x xs ih =>
    rw [List.mapM_cons] at h
    obtain ⟨y, hx, h⟩ := Option.bind_eq_some_iff.1 h
    obtain ⟨rest, hxs, h⟩ := Option.bind_eq_some_iff.1 h
    cases h
    rw [List.map_cons, List.map_cons, hx, ih hxs]

theorem exists_of_mem_mapM_eq_some {f : α → Option β} {xs : List α} {ys : List β}
    (h : xs.mapM f = some ys) {y : β} (hy : y ∈ ys) : ∃ x ∈ xs, f x = some y := by
  have hmem : some y ∈ ys.map some := List.mem_map_of_mem hy
  rwa [← map_eq_of_mapM_eq_some h, List.mem_map] at hmem

end ByteAssembler
