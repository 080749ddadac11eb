import Mathlib.Data.List.Infix

/-!
Texts with spans between tags.

A reader matches each opening tag with the next closing tag and leaves out what
is between them, the tags included. The first letter of both tags occurs nowhere
else in them, so a tag neither overlaps another one nor reaches across the edge
of a piece of text that begins or ends with one: a text made of pieces that end
in a span is read piece by piece (`outside_render`).
-/

namespace EspressoLogs.Lib

variable {α : Type}

/-! ### The first occurrence -/

/-- What is before and after the first occurrence of a tag. -/
def firstTag [DecidableEq α] (tag : List α) : List α → Option (List α × List α)
  | [] => none
  | x :: xs =>
      if tag.isPrefixOf (x :: xs) then some ([], (x :: xs).drop tag.length)
      else (firstTag tag xs).map fun found => (x :: found.1, found.2)

/-- No occurrence of the tag begins in `xs` and ends in `ys`. -/
def Clean (tag xs ys : List α) : Prop :=
  ∀ part, part ≠ [] → part <:+ xs → tag <+: part ++ ys → tag <+: part

theorem Clean.tail {tag xs ys : List α} {x : α} (clean : Clean tag (x :: xs) ys) :
    Clean tag xs ys :=
  fun part nonempty is => clean part nonempty (is.trans (List.suffix_cons x xs))

/-- The first occurrence is in the first piece, or else in the second. -/
theorem firstTag_append [DecidableEq α] {tag xs ys : List α} (clean : Clean tag xs ys) :
    firstTag tag (xs ++ ys) = match firstTag tag xs with
      | some found => some (found.1, found.2 ++ ys)
      | none => (firstTag tag ys).map fun found => (xs ++ found.1, found.2) := by
  induction xs with
  | nil =>
      simp only [List.nil_append, firstTag]
      cases firstTag tag ys <;> rfl
  | cons x xs ih =>
      have here : tag.isPrefixOf (x :: (xs ++ ys)) = tag.isPrefixOf (x :: xs) := by
        rw [Bool.eq_iff_iff, List.isPrefixOf_iff_prefix, List.isPrefixOf_iff_prefix]
        constructor
        · exact clean (x :: xs) nofun (List.suffix_refl _)
        · exact fun prefixed => prefixed.trans (List.prefix_append (x :: xs) ys)
      rw [List.cons_append, firstTag, firstTag, here, ih clean.tail]
      by_cases found : tag.isPrefixOf (x :: xs) = true
      · have short : tag.length ≤ (x :: xs).length :=
          (List.isPrefixOf_iff_prefix.mp found).length_le
        simp only [found, if_true]
        rw [← List.cons_append, List.drop_append_of_le_length short]
      · simp only [found]
        cases firstTag tag xs with
        | some found => rfl
        | none => cases firstTag tag ys <;> rfl

theorem length_firstTag [DecidableEq α] {tag xs before after : List α} (nonempty : tag ≠ [])
    (found : firstTag tag xs = some (before, after)) : after.length < xs.length := by
  induction xs generalizing before with
  | nil => cases found
  | cons x xs ih =>
      rw [firstTag] at found
      split at found
      · cases found
        have := List.length_pos_iff.mpr nonempty
        simp only [List.length_drop, List.length_cons]
        omega
      · cases rest : firstTag tag xs with
        | none => rw [rest] at found; cases found
        | some pair =>
            rw [rest] at found
            cases found
            exact Nat.lt_succ_of_lt (ih rest)

/-- The tag is where it was found, and nowhere before. -/
theorem firstTag_eq_some [DecidableEq α] {tag xs before after : List α}
    (found : firstTag tag xs = some (before, after)) :
    xs = before ++ (tag ++ after) ∧ firstTag tag before = none := by
  induction xs generalizing before with
  | nil => cases found
  | cons x xs ih =>
      rw [firstTag] at found
      split at found
      · rename_i here
        cases found
        obtain ⟨rest, same⟩ := List.isPrefixOf_iff_prefix.mp here
        rw [← same]
        simp [firstTag]
      · rename_i notHere
        cases rest : firstTag tag xs with
        | none => rw [rest] at found; cases found
        | some pair =>
            obtain ⟨before, rest'⟩ := pair
            rw [rest] at found
            cases found
            obtain ⟨same, absent⟩ := ih rest
            refine ⟨by rw [same, List.cons_append], ?_⟩
            rw [firstTag, absent, if_neg]
            · rfl
            · rw [List.isPrefixOf_iff_prefix] at notHere ⊢
              refine fun here => notHere (here.trans ?_)
              rw [same, ← List.cons_append]
              exact List.prefix_append _ _

theorem firstTag_self [DecidableEq α] {tag : List α} (nonempty : tag ≠ []) (xs : List α) :
    firstTag tag (tag ++ xs) = some ([], xs) := by
  cases tag with
  | nil => exact absurd rfl nonempty
  | cons m rest =>
      have here : (m :: rest).isPrefixOf (m :: (rest ++ xs)) = true :=
        List.isPrefixOf_iff_prefix.mpr (List.prefix_append (m :: rest) xs)
      rw [List.cons_append, firstTag, if_pos here]
      simp

/-! ### Tags -/

/-- An opening and a closing tag that begin with the same letter and have it
nowhere else. -/
structure Tags (α : Type) where
  mark : α
  openRest : List α
  closeRest : List α
  open_fresh : mark ∉ openRest
  close_fresh : mark ∉ closeRest
  open_not_prefix : ¬ openRest <+: closeRest
  close_not_prefix : ¬ closeRest <+: openRest

namespace Tags

variable (tags : Tags α)

def opening : List α := tags.mark :: tags.openRest

def closing : List α := tags.mark :: tags.closeRest

variable {tags}

/-- A tag begins with the mark, so none reaches into what begins with it. -/
theorem clean_of_mark {rest : List α} (fresh : tags.mark ∉ rest) (xs ys : List α) :
    Clean (tags.mark :: rest) xs (tags.mark :: ys) := by
  intro part nonempty _ prefixed
  rcases Nat.lt_or_ge part.length (tags.mark :: rest).length with short | long
  · exfalso
    -- the mark at the head of the second piece is then inside the tag
    obtain ⟨c, part, rfl⟩ := List.exists_cons_of_ne_nil nonempty
    have inner : part ++ [tags.mark] <+: rest := by
      have cut : c :: (part ++ [tags.mark]) <+: tags.mark :: rest := by
        refine List.prefix_of_prefix_length_le ?_ prefixed ?_
        · exact ⟨ys, by simp⟩
        · simp only [List.length_cons, List.length_append, List.length_nil] at short ⊢
          omega
      exact (List.cons_prefix_cons.mp cut).2
    exact fresh (inner.subset (List.mem_append_right _ (List.mem_singleton_self _)))
  · exact List.prefix_of_prefix_length_le prefixed (List.prefix_append part _) long

/-- None begins in a tag that is not the beginning of it. -/
theorem clean_after {rest other : List α} (fresh : tags.mark ∉ rest) (otherFresh : tags.mark ∉ other)
    (apart : ¬ other <+: rest) (xs ys : List α) :
    Clean (tags.mark :: rest) (xs ++ tags.mark :: other) ys := by
  intro part nonempty suffix prefixed
  rcases Nat.lt_or_ge part.length (tags.mark :: rest).length with short | long
  · exfalso
    obtain ⟨c, part, rfl⟩ := List.exists_cons_of_ne_nil nonempty
    have inTag : c :: part <+: tags.mark :: rest :=
      List.prefix_of_prefix_length_le (List.prefix_append _ ys) prefixed (Nat.le_of_lt short)
    obtain ⟨rfl, inRest⟩ := List.cons_prefix_cons.mp inTag
    rcases List.suffix_or_suffix_of_suffix suffix (List.suffix_append xs (tags.mark :: other)) with
      inside | around
    · rcases List.suffix_cons_iff.mp inside with same | inOther
      · injection same with _ same
        exact apart (same ▸ inRest)
      · exact otherFresh (inOther.subset List.mem_cons_self)
    · rcases List.suffix_cons_iff.mp around with same | inPart
      · injection same with _ same
        exact apart (same ▸ inRest)
      · exact fresh (inRest.subset (inPart.subset List.mem_cons_self))
  · exact List.prefix_of_prefix_length_le prefixed (List.prefix_append part ys) long

theorem opening_ne_nil : tags.opening ≠ [] := nofun

theorem closing_ne_nil : tags.closing ≠ [] := nofun

theorem opening_clean (xs ys : List α) : Clean tags.opening xs (tags.closing ++ ys) :=
  clean_of_mark tags.open_fresh xs _

theorem opening_clean_opening (xs ys : List α) : Clean tags.opening xs (tags.opening ++ ys) :=
  clean_of_mark tags.open_fresh xs _

theorem closing_clean (xs ys : List α) : Clean tags.closing xs (tags.closing ++ ys) :=
  clean_of_mark tags.close_fresh xs _

theorem closing_clean_opening (xs ys : List α) : Clean tags.closing xs (tags.opening ++ ys) :=
  clean_of_mark tags.close_fresh xs _

theorem opening_clean_after (xs ys : List α) : Clean tags.opening (xs ++ tags.closing) ys :=
  clean_after tags.open_fresh tags.close_fresh tags.close_not_prefix xs ys

theorem closing_clean_after (ys : List α) : Clean tags.closing tags.opening ys :=
  clean_after tags.close_fresh tags.open_fresh tags.open_not_prefix [] ys

variable [DecidableEq α]

/-- A tag does not occur in one that it is not the beginning of. -/
theorem firstTag_other {rest other : List α} (otherFresh : tags.mark ∉ other)
    (apart : ¬ rest <+: other) : firstTag (tags.mark :: rest) (tags.mark :: other) = none := by
  have inner : ∀ xs : List α, tags.mark ∉ xs → firstTag (tags.mark :: rest) xs = none := by
    intro xs fresh
    induction xs with
    | nil => rfl
    | cons x xs ih =>
        obtain ⟨ne, fresh⟩ := not_or.mp (fun here => fresh (List.mem_cons.mpr here))
        rw [firstTag, if_neg, ih fresh]
        · rfl
        · rw [List.isPrefixOf_iff_prefix, List.cons_prefix_cons]
          exact fun prefixed => ne prefixed.1
  rw [firstTag, if_neg, inner other otherFresh]
  · rfl
  · rw [List.isPrefixOf_iff_prefix, List.cons_prefix_cons]
    exact fun prefixed => apart prefixed.2

theorem firstTag_opening_closing : firstTag tags.opening tags.closing = none :=
  firstTag_other tags.close_fresh tags.open_not_prefix

theorem firstTag_closing_opening : firstTag tags.closing tags.opening = none :=
  firstTag_other tags.open_fresh tags.close_not_prefix

/-! ### The reader -/

/-- What is left of a text, with as many spans taken out as there is fuel for. -/
def outsideWith (tags : Tags α) : Nat → List α → List α
  | 0, text => text
  | fuel + 1, text =>
      match firstTag tags.opening text with
      | none => text
      | some (before, rest) =>
          match firstTag tags.closing rest with
          | none => text
          | some (_, after) => before ++ outsideWith tags fuel after

/-- The text outside the spans. -/
def outside (tags : Tags α) (text : List α) : List α := outsideWith tags text.length text

theorem outsideWith_eq {fuel : Nat} {text : List α} (enough : text.length ≤ fuel) :
    outsideWith tags fuel text = tags.outside text := by
  have agree : ∀ n m (text : List α), text.length ≤ n → text.length ≤ m →
      outsideWith tags n text = outsideWith tags m text := by
    intro n
    induction n with
    | zero =>
        intro m text none _
        obtain rfl := List.length_eq_zero_iff.mp (Nat.le_zero.mp none)
        cases m <;> rfl
    | succ n ih =>
        intro m text hn hm
        cases m with
        | zero =>
            obtain rfl := List.length_eq_zero_iff.mp (Nat.le_zero.mp hm)
            rfl
        | succ m =>
            simp only [outsideWith]
            cases opened : firstTag tags.opening text with
            | none => rfl
            | some pair =>
                obtain ⟨before, rest⟩ := pair
                simp only
                cases closed : firstTag tags.closing rest with
                | none => rfl
                | some pair =>
                    obtain ⟨inside, after⟩ := pair
                    have shorter := length_firstTag opening_ne_nil opened
                    have shorter' := length_firstTag closing_ne_nil closed
                    simp only [ih m after (by omega) (by omega)]
  exact agree fuel text.length text enough (Nat.le_refl _)

theorem outside_nil : tags.outside [] = [] := rfl

theorem outside_plain {text : List α} (unopened : firstTag tags.opening text = none) :
    tags.outside text = text := by
  cases text with
  | nil => rfl
  | cons x xs => simp only [outside, List.length_cons, outsideWith, unopened]

theorem outside_unclosed {text before rest : List α}
    (opened : firstTag tags.opening text = some (before, rest))
    (unclosed : firstTag tags.closing rest = none) : tags.outside text = text := by
  cases text with
  | nil => rfl
  | cons x xs => simp only [outside, List.length_cons, outsideWith, opened, unclosed]

theorem outside_span {text before rest inside after : List α}
    (opened : firstTag tags.opening text = some (before, rest))
    (closed : firstTag tags.closing rest = some (inside, after)) :
    tags.outside text = before ++ tags.outside after := by
  have shorter := length_firstTag opening_ne_nil opened
  have shorter' := length_firstTag closing_ne_nil closed
  cases text with
  | nil => cases opened
  | cons x xs =>
      simp only [List.length_cons] at shorter
      simp only [outside, List.length_cons, outsideWith, opened, closed]
      rw [outsideWith_eq (by omega)]
      rfl

/-! ### Piece by piece -/

theorem outside_append {xs ys : List α} (unopened : firstTag tags.opening xs = none)
    (clean : Clean tags.opening xs ys) : tags.outside (xs ++ ys) = xs ++ tags.outside ys := by
  have found := firstTag_append clean
  rw [unopened] at found
  cases opened : firstTag tags.opening ys with
  | none =>
      rw [opened] at found
      rw [outside_plain found, outside_plain opened]
  | some pair =>
      obtain ⟨before, rest⟩ := pair
      rw [opened] at found
      cases closed : firstTag tags.closing rest with
      | none => rw [outside_unclosed found closed, outside_unclosed opened closed]
      | some pair =>
          obtain ⟨inside, after⟩ := pair
          rw [outside_span found closed, outside_span opened closed, List.append_assoc]

variable (tags) in
/-- The first closing tag of a text that is followed by one. -/
theorem firstTag_closing (xs ys : List α) :
    firstTag tags.closing (xs ++ (tags.closing ++ ys)) =
      match firstTag tags.closing xs with
      | some found => some (found.1, found.2 ++ (tags.closing ++ ys))
      | none => some (xs, ys) := by
  rw [firstTag_append (closing_clean xs ys), firstTag_self closing_ne_nil]
  cases firstTag tags.closing xs with
  | some found => rfl
  | none => simp

/-- A closing tag ends whatever is open before it. -/
theorem outside_closing (xs ys : List α) :
    tags.outside (xs ++ (tags.closing ++ ys)) =
      tags.outside (xs ++ tags.closing) ++ tags.outside ys := by
  -- by the length of what stands before; each span that closes in it makes that shorter
  induction hn : xs.length using Nat.strongRecOn generalizing xs with
  | ind n ih =>
      cases opened : firstTag tags.opening xs with
      | none =>
          have unopened : firstTag tags.opening (xs ++ tags.closing) = none := by
            have clean : Clean tags.opening xs tags.closing := clean_of_mark tags.open_fresh xs _
            rw [firstTag_append clean, opened, firstTag_opening_closing]
            rfl
          rw [← List.append_assoc, outside_append unopened (opening_clean_after xs ys),
            outside_plain unopened]
      | some pair =>
          obtain ⟨before, rest⟩ := pair
          have found : ∀ zs, firstTag tags.opening (xs ++ (tags.closing ++ zs)) =
              some (before, rest ++ (tags.closing ++ zs)) := by
            intro zs
            rw [firstTag_append (opening_clean xs _), opened]
          have found₀ := found []
          rw [List.append_nil] at found₀
          cases closed : firstTag tags.closing rest with
          | none =>
              have closes := firstTag_closing tags rest
              simp only [closed] at closes
              have closes₀ := closes []
              rw [List.append_nil] at closes₀
              rw [outside_span (found ys) (closes ys), outside_span found₀ closes₀,
                outside_nil, List.append_nil]
          | some pair =>
              obtain ⟨inside, after⟩ := pair
              have closes := firstTag_closing tags rest
              simp only [closed] at closes
              have closes₀ := closes []
              rw [List.append_nil] at closes₀
              have shorter := length_firstTag opening_ne_nil opened
              have shorter' := length_firstTag closing_ne_nil closed
              rw [outside_span (found ys) (closes ys), outside_span found₀ closes₀,
                ih after.length (by omega) after rfl, List.append_assoc]

/-- A text between tags. -/
def wrapped (tags : Tags α) (text : List α) : List α := tags.opening ++ (text ++ tags.closing)

/-- What of a text a reader sees although it is between tags. -/
def escaped (tags : Tags α) (text : List α) : List α := tags.outside (tags.wrapped text)

/-- What a reader sees of a text that a span follows. -/
def shown (tags : Tags α) (text : List α) : List α := tags.outside (text ++ tags.wrapped [])

/-- A text without a closing tag stays between its tags, whatever is before them. -/
theorem outside_wrapped_of_absent {text : List α} (absent : firstTag tags.closing text = none)
    (xs : List α) : tags.outside (xs ++ tags.wrapped text) = tags.shown xs := by
  induction hn : xs.length using Nat.strongRecOn generalizing xs with
  | ind n ih =>
      have closes : ∀ text : List α, firstTag tags.closing text = none →
          firstTag tags.closing (text ++ tags.closing) = some (text, []) := by
        intro text absent
        have closes := firstTag_closing tags text []
        rw [absent, List.append_nil] at closes
        exact closes
      have opens : ∀ text : List α, firstTag tags.opening (xs ++ tags.wrapped text) =
          match firstTag tags.opening xs with
            | some found => some (found.1, found.2 ++ tags.wrapped text)
            | none => some (xs, text ++ tags.closing) := by
        intro text
        rw [wrapped, firstTag_append (opening_clean_opening xs _), firstTag_self opening_ne_nil]
        cases firstTag tags.opening xs with
        | some found => rfl
        | none => simp
      cases opened : firstTag tags.opening xs with
      | none =>
          simp only [opened] at opens
          rw [shown, outside_span (opens text) (closes text absent),
            outside_span (opens []) (closes [] rfl)]
      | some pair =>
          obtain ⟨before, rest⟩ := pair
          simp only [opened] at opens
          cases closed : firstTag tags.closing rest with
          | none =>
              -- the span that is open takes in the tag, and the text up to its end
              have ends : ∀ text : List α, firstTag tags.closing text = none →
                  firstTag tags.closing (rest ++ tags.wrapped text) =
                    some (rest ++ (tags.opening ++ text), []) := by
                intro text absent
                rw [wrapped, firstTag_append (closing_clean_opening rest _), closed,
                  firstTag_append (closing_clean_after _), firstTag_closing_opening,
                  closes text absent]
                rfl
              rw [shown, outside_span (opens text) (ends text absent),
                outside_span (opens []) (ends [] rfl)]
          | some pair =>
              obtain ⟨inside, after⟩ := pair
              have ends : ∀ text : List α, firstTag tags.closing (rest ++ tags.wrapped text) =
                  some (inside, after ++ tags.wrapped text) := by
                intro text
                rw [wrapped, firstTag_append (closing_clean_opening rest _), closed]
              have shorter := length_firstTag opening_ne_nil opened
              have shorter' := length_firstTag closing_ne_nil closed
              have next := ih after.length (by omega) after rfl
              rw [shown, outside_span (opens text) (ends text), outside_span (opens []) (ends []),
                next, shown]

theorem shown_nil : tags.shown [] = [] := by
  have closes := firstTag_closing tags [] []
  rw [List.append_nil] at closes
  exact outside_span (firstTag_self opening_ne_nil ([] ++ tags.closing)) closes

/-- Nothing escapes from a text without a closing tag. -/
theorem escaped_of_absent {text : List α} (absent : firstTag tags.closing text = none) :
    tags.escaped text = [] :=
  (outside_wrapped_of_absent absent []).trans shown_nil

/-- What is before the span, and what escapes from it. -/
theorem outside_wrapped (xs text : List α) :
    tags.outside (xs ++ tags.wrapped text) = tags.shown xs ++ tags.escaped text := by
  cases closed : firstTag tags.closing text with
  | none => rw [outside_wrapped_of_absent closed, escaped_of_absent closed, List.append_nil]
  | some pair =>
      obtain ⟨inside, after⟩ := pair
      obtain ⟨rfl, absent⟩ := firstTag_eq_some closed
      have split : ∀ xs : List α, tags.outside (xs ++ tags.wrapped (inside ++ (tags.closing ++ after))) =
          tags.shown xs ++ tags.outside (after ++ tags.closing) := by
        intro xs
        have cut : xs ++ tags.wrapped (inside ++ (tags.closing ++ after)) =
            (xs ++ tags.opening ++ inside) ++ (tags.closing ++ (after ++ tags.closing)) := by
          simp [wrapped]
        have whole : xs ++ tags.opening ++ inside ++ tags.closing = xs ++ tags.wrapped inside := by
          simp [wrapped]
        rw [cut, outside_closing, whole, outside_wrapped_of_absent absent]
      rw [split xs, escaped, ← List.nil_append (tags.wrapped _), split [], shown_nil,
        List.nil_append]

/-- Pieces of text, each with what is between tags at its end. -/
def render (tags : Tags α) : List (List α × List α) → List α → List α
  | [], tail => tail
  | piece :: rest, tail => piece.1 ++ (tags.wrapped piece.2 ++ render tags rest tail)

/-- What a reader sees of the pieces. -/
def visible (tags : Tags α) (pieces : List (List α × List α)) : List α :=
  pieces.flatMap fun piece => tags.shown piece.1 ++ tags.escaped piece.2

/-- The reader takes the pieces one by one. -/
theorem outside_render (pieces : List (List α × List α)) (tail : List α) :
    tags.outside (tags.render pieces tail) = tags.visible pieces ++ tags.outside tail := by
  induction pieces with
  | nil => rfl
  | cons piece rest ih =>
      have cut : tags.render (piece :: rest) tail =
          (piece.1 ++ (tags.opening ++ piece.2)) ++ (tags.closing ++ tags.render rest tail) := by
        simp [render, wrapped]
      have whole : piece.1 ++ (tags.opening ++ piece.2) ++ tags.closing =
          piece.1 ++ tags.wrapped piece.2 := by
        simp [wrapped]
      rw [cut, outside_closing, whole, outside_wrapped, ih, visible, visible, List.flatMap_cons,
        List.append_assoc, List.append_assoc, List.append_assoc]

/-- Where nothing escapes, only the text before the spans is seen. -/
theorem visible_of_absent {pieces : List (List α × List α)}
    (absent : ∀ piece ∈ pieces, firstTag tags.closing piece.2 = none) :
    tags.visible pieces = (pieces.map Prod.fst).flatMap tags.shown := by
  induction pieces with
  | nil => rfl
  | cons piece rest ih =>
      have next := ih fun x hx => absent x (List.mem_cons_of_mem _ hx)
      rw [visible] at next ⊢
      rw [List.flatMap_cons, next, escaped_of_absent (absent piece List.mem_cons_self),
        List.append_nil, List.map_cons, List.flatMap_cons]

end Tags

end EspressoLogs.Lib
