import ByteAssembler.Diagnostic
import Mathlib.Data.List.Sort

/-
  The order of diagnostics. `sortByLine` puts them in the order of their lines
  (`pairwise_sortByLine`) and is stable: the diagnostics of one kind stand in the same order as if
  they had been sorted alone (`sortByLine_filter`).
-/

namespace ByteAssembler.Diagnostic

theorem notAfter_total (d e : Diagnostic) : d.notAfter e = true ∨ e.notAfter d = true := by
  unfold notAfter
  cases d.line <;> cases e.line <;> simp [Nat.le_total]

theorem notAfter_trans {d e f : Diagnostic} (hde : d.notAfter e = true)
    (hef : e.notAfter f = true) : d.notAfter f = true := by
  unfold notAfter at *
  cases hd : d.line <;> cases he : e.line <;> cases hf : f.line <;> simp_all
  omega

instance : Std.Total fun d e : Diagnostic => d.notAfter e = true :=
  ⟨notAfter_total⟩

instance : IsTrans Diagnostic fun d e => d.notAfter e = true :=
  ⟨fun _ _ _ => notAfter_trans⟩

theorem insertByLine_eq_orderedInsert (d : Diagnostic) (ds : List Diagnostic) :
    insertByLine d ds = ds.orderedInsert (fun d e => d.notAfter e = true) d := by
  induction ds with
  | nil => rfl
  | cons e rest ih => rw [insertByLine, ih, List.orderedInsert_cons]

theorem sortByLine_eq_insertionSort (ds : List Diagnostic) :
    sortByLine ds = ds.insertionSort fun d e => d.notAfter e = true := by
  induction ds with
  | nil => rfl
  | cons d rest ih =>
    rw [List.insertionSort_cons, ← ih, ← insertByLine_eq_orderedInsert]
    rfl

theorem pairwise_sortByLine (ds : List Diagnostic) :
    (sortByLine ds).Pairwise fun d e => d.notAfter e = true := by
  rw [sortByLine_eq_insertionSort]
  exact List.pairwise_insertionSort _ ds

/-- The reports on one line are in order as they are. -/
theorem sortByLine_of_line (line : Nat) {ds : List Diagnostic} (h : ∀ d ∈ ds, d.line = some line) :
    sortByLine ds = ds := by
  have hsorted : ds.Pairwise fun d e => d.notAfter e = true := by
    refine List.pairwise_of_forall_mem_list fun d hd e he => ?_
    rw [notAfter, h d hd, h e he]
    exact decide_eq_true (Nat.le_refl line)
  rw [sortByLine_eq_insertionSort, hsorted.insertionSort_eq]

theorem sortByLine_map_mk (line : Nat) (ps : List Problem) :
    sortByLine (ps.map (mk (some line))) = ps.map (mk (some line)) := by
  refine sortByLine_of_line line fun d hd => ?_
  obtain ⟨p, -, rfl⟩ := List.mem_map.1 hd
  rfl

/-! ## Stability -/

theorem insertByLine_of_forall {d : Diagnostic} {ds : List Diagnostic}
    (h : ∀ e ∈ ds, d.notAfter e = true) : insertByLine d ds = d :: ds := by
  cases ds with
  | nil => rfl
  | cons e rest => exact if_pos (h e List.mem_cons_self)

theorem filter_insertByLine_of_not {p : Diagnostic → Bool} {d : Diagnostic} (hp : p d = false)
    (ds : List Diagnostic) : (insertByLine d ds).filter p = ds.filter p := by
  induction ds with
  | nil => simp [insertByLine, hp]
  | cons e rest ih =>
    unfold insertByLine
    split
    · exact List.filter_cons_of_neg (by simp [hp])
    · rw [List.filter_cons, List.filter_cons, ih]

theorem filter_insertByLine {p : Diagnostic → Bool} {d : Diagnostic} (hp : p d = true)
    {ds : List Diagnostic} (hs : ds.Pairwise fun d e => d.notAfter e = true) :
    (insertByLine d ds).filter p = insertByLine d (ds.filter p) := by
  induction ds with
  | nil => simp [insertByLine, hp]
  | cons e rest ih =>
    obtain ⟨he, hrest⟩ := List.pairwise_cons.1 hs
    by_cases hde : d.notAfter e = true
    · have hall : ∀ f ∈ (e :: rest).filter p, d.notAfter f = true := by
        intro f hf
        rcases List.mem_cons.1 (List.mem_of_mem_filter hf) with rfl | hf
        · exact hde
        · exact notAfter_trans hde (he f hf)
      rw [insertByLine, if_pos hde, insertByLine_of_forall hall, List.filter_cons_of_pos hp]
    · rw [insertByLine, if_neg hde]
      by_cases hpe : p e = true
      · rw [List.filter_cons_of_pos hpe, List.filter_cons_of_pos hpe, ih hrest, insertByLine,
          if_neg hde]
      · rw [List.filter_cons_of_neg hpe, List.filter_cons_of_neg hpe, ih hrest]

/-- Sorting and selecting commute. -/
theorem sortByLine_filter (p : Diagnostic → Bool) (ds : List Diagnostic) :
    sortByLine (ds.filter p) = (sortByLine ds).filter p := by
  induction ds with
  | nil => rfl
  | cons d rest ih =>
    have hcons : ∀ d ds, sortByLine (d :: ds) = insertByLine d (sortByLine ds) := fun _ _ => rfl
    rw [hcons]
    cases hp : p d with
    | true =>
      rw [List.filter_cons_of_pos hp, hcons, ih, filter_insertByLine hp (pairwise_sortByLine rest)]
    | false =>
      rw [List.filter_cons_of_neg (by simp [hp]), ih, filter_insertByLine_of_not hp]

end ByteAssembler.Diagnostic
