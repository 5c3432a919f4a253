import BranchingStory.Proofs.Json.Tokens

/-!
# Documents are read back from their text

The tokens of a document drive the reading machine through the document and to the place behind it,
as long as no container lies deeper than is allowed. So a document of which nothing is lost in its
text is read back from the text.
-/

namespace BranchingStory.Json

mutual

/-- How deep arrays and objects are nested in a document. -/
def depth : Json → Nat
  | .array items => depthItems items + 1
  | .object fields => depthFields fields + 1
  | _ => 0

/-- How deep arrays and objects are nested in some item. -/
def depthItems : List Json → Nat
  | [] => 0
  | j :: rest => max (depth j) (depthItems rest)

/-- How deep arrays and objects are nested in some field. -/
def depthFields : List (String × Json) → Nat
  | [] => 0
  | (_, j) :: rest => max (depth j) (depthFields rest)

end

variable {frames : List Frame} {j : Json}

/-- A container that is not nested too deep closes to a document. -/
theorem closeTop_eq_place (frame : Frame) (h : frames.length < maxDepth) :
    closeTop frame frames = place frame.close frames := by
  have hempty : (frames.drop (maxDepth - 1)).isEmpty = true := by
    rw [List.isEmpty_iff, List.drop_eq_nil_iff]
    omega
  rw [closeTop, hempty, if_pos rfl]

/-- Fields with text for keys have those keys. -/
theorem keyedFields?_map_some (fields : List (String × Json)) :
    keyedFields? (fields.map fun f => (some f.1, f.2)) = some fields := by
  induction fields with
  | nil => rfl
  | cons f fields ih => rw [List.map_cons, keyedFields?, ih, Option.map_some]

/-- The first token of a document closes no array. -/
theorem exists_tokens (j : Json) : ∃ t rest, tokens j = t :: rest ∧ t ≠ .closeArray := by
  cases j <;> exact ⟨_, _, rfl, by simp⟩

/-- The first item of an array is read where the array could close as well. -/
theorem run?_firstItem (j : Json) (items : List Json) (rest : List Token) :
    (Machine.reading (.array [] :: frames) .valueOrClose).run? (itemTokens (j :: items) ++ rest) =
      (Machine.reading (.array [] :: frames) .value).run? (itemTokens (j :: items) ++ rest) := by
  obtain ⟨more, hmore⟩ : ∃ more, itemTokens (j :: items) = tokens j ++ more := by
    cases items with
    | nil => exact ⟨_, rfl⟩
    | cons k items => exact ⟨_, rfl⟩
  obtain ⟨t, after, ht, hne⟩ := exists_tokens j
  have hclose : closeWith? (.array [] :: frames) t = none := by
    cases t <;> first | rfl | exact absurd rfl hne
  rw [hmore, ht]
  simp only [List.cons_append, Machine.run?, Machine.step?, hclose, Option.orElse_none]

mutual

/-- The tokens of a document lead the machine from the start of it to its place. -/
theorem run?_tokens : ∀ {j : Json} (frames : List Frame), j.Lasting →
    frames.length + j.depth ≤ maxDepth → ∀ rest,
      (Machine.reading frames .value).run? (tokens j ++ rest) = (place j frames).run? rest
  | .null, _, _, _, _ => rfl
  | .bool _, _, _, _, _ => rfl
  | .number _, _, _, _, _ => rfl
  | .string _, _, _, _, _ => rfl
  | .array items, frames, h, hdepth, rest => by
    rw [Lasting] at h
    rw [depth] at hdepth
    have hclose : ∀ items : List Json, closeTop (.array items.reverse) frames =
        place (.array items) frames := by
      intro items
      rw [closeTop_eq_place _ (by omega), Frame.close, List.reverse_reverse]
    rw [tokens, ← hclose]
    cases items with
    | nil => rfl
    | cons j items =>
      have hitems := run?_itemTokens frames (List.cons_ne_nil j items) h (by omega) [] rest
      rw [List.append_nil] at hitems
      exact (run?_firstItem j items rest).trans hitems
  | .object fields, frames, h, hdepth, rest => by
    rw [Lasting] at h
    rw [depth] at hdepth
    have hclose : ∀ fields : List (String × Json), closeTop (.object
        (fields.map fun f => (some f.1, f.2)).reverse none) frames =
          place (.object fields) frames := by
      intro fields
      rw [closeTop_eq_place _ (by omega), Frame.close, List.reverse_reverse,
        keyedFields?_map_some]
    rw [tokens, ← hclose]
    cases fields with
    | nil => rfl
    | cons f fields =>
      have hfields := run?_fieldTokens frames (List.cons_ne_nil f fields) h (by omega) [] rest
      rw [List.append_nil] at hfields
      refine Eq.trans ?_ hfields
      cases fields <;> rfl

/-- The tokens of an array's items lead the machine to the end of the array. -/
theorem run?_itemTokens : ∀ {items : List Json} (frames : List Frame), items ≠ [] →
    LastingItems items → frames.length + (depthItems items + 1) ≤ maxDepth →
      ∀ found rest, (Machine.reading (.array found :: frames) .value).run?
          (itemTokens items ++ rest) =
        (closeTop (.array (items.reverse ++ found)) frames).run? rest
  | [], _, hne, _, _, _, _ => absurd rfl hne
  | [j], frames, _, h, hdepth, found, rest => by
    rw [LastingItems] at h
    rw [depthItems] at hdepth
    have hitem := run?_tokens (.array found :: frames) h.1 (by rw [List.length_cons]; omega)
      (.closeArray :: rest)
    rw [itemTokens, List.append_assoc]
    exact hitem
  | j :: k :: items, frames, _, h, hdepth, found, rest => by
    rw [LastingItems] at h
    rw [depthItems] at hdepth
    have hitem := run?_tokens (.array found :: frames) h.1 (by rw [List.length_cons]; omega)
      (.comma :: (itemTokens (k :: items) ++ rest))
    have hitems := run?_itemTokens frames (List.cons_ne_nil k items) h.2 (by omega) (j :: found) rest
    rw [itemTokens, List.append_assoc, List.cons_append, List.reverse_cons, List.append_assoc]
    · exact hitem.trans hitems
    · simp

/-- The tokens of an object's fields lead the machine to the end of the object. -/
theorem run?_fieldTokens : ∀ {fields : List (String × Json)} (frames : List Frame), fields ≠ [] →
    LastingFields fields → frames.length + (depthFields fields + 1) ≤ maxDepth →
      ∀ found rest, (Machine.reading (.object found none :: frames) .key).run?
          (fieldTokens fields ++ rest) =
        (closeTop (.object ((fields.map fun f => (some f.1, f.2)).reverse ++ found) none)
          frames).run? rest
  | [], _, hne, _, _, _, _ => absurd rfl hne
  | [(key, j)], frames, _, h, hdepth, found, rest => by
    rw [LastingFields] at h
    rw [depthFields] at hdepth
    have hvalue := run?_tokens (.object found (some key) :: frames) h.1
      (by rw [List.length_cons]; omega) (.closeObject :: rest)
    rw [fieldTokens, List.cons_append, List.cons_append, List.append_assoc]
    exact hvalue
  | (key, j) :: g :: fields, frames, _, h, hdepth, found, rest => by
    rw [LastingFields] at h
    rw [depthFields] at hdepth
    have hvalue := run?_tokens (.object found (some key) :: frames) h.1
      (by rw [List.length_cons]; omega) (.comma :: (fieldTokens (g :: fields) ++ rest))
    have hfields := run?_fieldTokens frames (List.cons_ne_nil g fields) h.2 (by omega)
      ((some key, j) :: found) rest
    rw [fieldTokens, List.cons_append, List.cons_append, List.append_assoc, List.cons_append,
      List.map_cons, List.reverse_cons, List.append_assoc]
    · exact hvalue.trans hfields
    · simp

end

/-- A document of which nothing is lost in its text and that nests no deeper than is allowed is read
back from its text. -/
theorem parse?_render (h : j.Lasting) (hdepth : j.depth ≤ maxDepth) :
    parse? j.render = some j := by
  have hrun := run?_tokens [] h (by simpa using hdepth) []
  rw [List.append_nil] at hrun
  rw [parse?, render, String.toList_ofList, tokens?_write h, Option.bind_some, ofTokens?, hrun]
  rfl

/-- The document conveys something to a reader: nothing of the document is lost in its text, and the
reader takes it for just that. -/
structure Conveys {α : Type} (read : Json → Option α) (j : Json) (a : α) : Prop where
  lasting : j.Lasting
  read_eq : read j = some a

/-- What a document conveys is read from the text of the document. -/
theorem Conveys.read_text {α : Type} {read : Json → Option α} {j : Json} {a : α}
    (h : Conveys read j a) (hdepth : j.depth ≤ maxDepth) :
    (parse? j.render).bind read = some a := by
  rw [parse?_render h.lasting hdepth, Option.bind_some, h.read_eq]

/-- A string conveys its text. -/
theorem conveys_string (s : String) : Conveys string? (.string s) s := ⟨trivial, rfl⟩

end BranchingStory.Json
