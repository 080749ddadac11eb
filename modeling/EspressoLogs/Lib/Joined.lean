import Mathlib.Data.List.Forall2

/-!
Texts joined by a separator.

The pieces of a list of texts are what lies between the separators once the list
has been joined. Joining tells lists of texts apart exactly as far as their
pieces do (`intercalate_eq_iff`); texts that come in as many pieces each are told
apart one by one (`pieces_eq_iff`).
-/

namespace EspressoLogs.Lib

variable {α : Type} [DecidableEq α] (sep : α)

/-- What the separator leaves of the texts. -/
def pieces (texts : List (List α)) : List (List α) := texts.flatMap (·.splitOn sep)

variable {sep}

theorem pieces_ne_nil {texts : List (List α)} (some : texts ≠ []) : pieces sep texts ≠ [] := by
  obtain ⟨text, rest, rfl⟩ := List.exists_cons_of_ne_nil some
  intro none
  exact List.splitOn_ne_nil sep text (List.append_eq_nil_iff.mp none).1

omit [DecidableEq α] in
theorem intercalate_cons (text : List α) {texts : List (List α)} (some : texts ≠ []) :
    [sep].intercalate (text :: texts) = text ++ sep :: [sep].intercalate texts := by
  obtain ⟨next, rest, rfl⟩ := List.exists_cons_of_ne_nil some
  rw [List.intercalate_cons_cons, List.append_assoc, List.singleton_append]

omit [DecidableEq α] in
theorem intercalate_append {front back : List (List α)} (someFront : front ≠ [])
    (someBack : back ≠ []) : [sep].intercalate (front ++ back) =
      [sep].intercalate front ++ sep :: [sep].intercalate back := by
  induction front with
  | nil => exact absurd rfl someFront
  | cons text rest ih =>
      cases rest with
      | nil =>
          rw [List.intercalate_singleton]
          exact intercalate_cons text someBack
      | cons next rest =>
          have onward := ih (List.cons_ne_nil _ _)
          rw [List.cons_append, intercalate_cons text (List.append_ne_nil_of_left_ne_nil
            (List.cons_ne_nil _ _) _), onward, intercalate_cons text (List.cons_ne_nil _ _),
            List.append_assoc, List.cons_append]

/-- Joining the pieces is joining the texts. -/
theorem intercalate_pieces (texts : List (List α)) :
    [sep].intercalate (pieces sep texts) = [sep].intercalate texts := by
  induction texts with
  | nil => rfl
  | cons text rest ih =>
      have whole : pieces sep (text :: rest) = text.splitOn sep ++ pieces sep rest := rfl
      rw [whole]
      cases rest with
      | nil =>
          rw [pieces, List.flatMap_nil, List.append_nil, List.intercalate_splitOn]
          exact List.intercalate_singleton.symm
      | cons next rest =>
          rw [intercalate_append (List.splitOn_ne_nil sep text) (pieces_ne_nil (List.cons_ne_nil _ _)), ih,
            List.intercalate_splitOn, intercalate_cons text (List.cons_ne_nil _ _)]

/-- No piece has the separator in it. -/
theorem sep_notMem_splitOn (text : List α) : ∀ piece ∈ text.splitOn sep, sep ∉ piece := by
  induction text with
  | nil =>
      intro piece hp
      rw [List.splitOn_nil, List.mem_singleton] at hp
      rw [hp]
      exact List.not_mem_nil
  | cons c rest ih =>
      rw [List.splitOn_cons_eq_if_modifyHead]
      split
      · intro piece hp
        rcases List.mem_cons.mp hp with rfl | hp
        · exact List.not_mem_nil
        · exact ih piece hp
      · rename_i other
        obtain ⟨first, others, split⟩ := List.exists_cons_of_ne_nil (List.splitOn_ne_nil sep rest)
        rw [split] at ih ⊢
        intro piece hp
        rcases List.mem_cons.mp hp with rfl | hp
        · refine List.not_mem_cons_of_ne_of_not_mem ?_ (ih first List.mem_cons_self)
          rintro rfl
          exact other (beq_self_eq_true _)
        · exact ih piece (List.mem_cons_of_mem _ hp)

theorem sep_notMem_pieces (texts : List (List α)) : ∀ piece ∈ pieces sep texts, sep ∉ piece := by
  intro piece hp
  obtain ⟨text, _, hp⟩ := List.mem_flatMap.mp hp
  exact sep_notMem_splitOn text piece hp

/-- Joining tells texts apart as far as their pieces do. -/
theorem intercalate_eq_iff {texts others : List (List α)} (some : texts ≠ [])
    (someOther : others ≠ []) :
    [sep].intercalate texts = [sep].intercalate others ↔ pieces sep texts = pieces sep others := by
  constructor
  · intro same
    rw [← intercalate_pieces texts, ← intercalate_pieces others] at same
    rw [← List.splitOn_intercalate sep (sep_notMem_pieces texts) (pieces_ne_nil some), same,
      List.splitOn_intercalate sep (sep_notMem_pieces others) (pieces_ne_nil someOther)]
  · intro same
    rw [← intercalate_pieces texts, same, intercalate_pieces others]

/-- Texts in as many pieces each. -/
theorem pieces_eq_iff {texts others : List (List α)}
    (counts : List.Forall₂ (fun a b => (a.splitOn sep).length = (b.splitOn sep).length) texts others) :
    pieces sep texts = pieces sep others ↔ texts = others := by
  refine ⟨fun same => ?_, fun same => by rw [same]⟩
  induction counts with
  | nil => rfl
  | @cons a b _ _ count _ ih =>
      obtain ⟨first, rest⟩ := List.append_inj same count
      have first : a.splitOn sep = b.splitOn sep := first
      have head : a = b :=
        calc a = [sep].intercalate (a.splitOn sep) := (List.intercalate_splitOn sep).symm
          _ = [sep].intercalate (b.splitOn sep) := by rw [first]
          _ = b := List.intercalate_splitOn sep
      rw [ih rest, head]

end EspressoLogs.Lib
