import BranchingStory.Json.Reader
import BranchingStory.Proofs.Json.Words

/-!
# The tokens of a written document

The text of a document is scanned to the tokens of its parts. A word ends where the text ends or
where a character stands that is no part of words; a string ends at its closing quote, and what was
escaped in it is the same character again.
-/

namespace BranchingStory.Json

mutual

/-- The tokens of a document. -/
def tokens : Json → List Token
  | .null => [.null]
  | .bool b => [.bool b]
  | .number n => [.number (some n)]
  | .string s => [.string (some s)]
  | .array items => .openArray :: itemTokens items
  | .object fields => .openObject :: fieldTokens fields
  | .unreadable => [.null]

/-- The tokens of an array's items with its closing bracket. -/
def itemTokens : List Json → List Token
  | [] => [.closeArray]
  | [j] => tokens j ++ [.closeArray]
  | j :: rest => tokens j ++ .comma :: itemTokens rest

/-- The tokens of an object's fields with its closing brace. -/
def fieldTokens : List (String × Json) → List Token
  | [] => [.closeObject]
  | [(key, j)] => .string (some key) :: .colon :: (tokens j ++ [.closeObject])
  | (key, j) :: rest => .string (some key) :: .colon :: (tokens j ++ .comma :: fieldTokens rest)

end

/-- No word goes on here: the text ends, or a character follows that is no part of words. -/
def EndsWord (rest : List Char) : Prop := ∀ c ∈ rest.head?, isWordChar c = false

section Words

variable {word rest : List Char} {t : Token} {c : Char}

/-- A word starts with any of its characters. -/
theorem meet?_of_isWordChar (h : isWordChar c = true) : meet? c = some (.word [c], []) := by
  unfold meet?
  split <;> exact if_pos h

/-- The characters of a word are gathered. -/
theorem scan?_word (h : ∀ c ∈ word, isWordChar c = true) (chars : List Char) (found : List Token)
    (rest : List Char) : scan? (.word chars) found (word ++ rest) =
      scan? (.word (word.reverse ++ chars)) found rest := by
  induction word generalizing chars with
  | nil => rfl
  | cons c word ih =>
    rw [List.forall_mem_cons] at h
    simp only [List.cons_append, scan?, Scanner.step?, h.1, if_true]
    rw [List.reverse_nil, List.nil_append, ih h.2, List.reverse_cons, List.append_assoc]
    rfl

/-- A word is gathered from its first character on. -/
theorem scan?_start (h : IsWord word) (found : List Token) (rest : List Char) :
    scan? .between found (word ++ rest) = scan? (.word word.reverse) found rest := by
  obtain ⟨hne, hchars⟩ := h
  obtain ⟨c, more, rfl⟩ := List.exists_cons_of_ne_nil hne
  rw [List.forall_mem_cons] at hchars
  simp only [List.cons_append, scan?, Scanner.step?, meet?_of_isWordChar hchars.1]
  rw [List.reverse_nil, List.nil_append, scan?_word hchars.2, List.reverse_cons]

/-- A word is scanned to its token where it ends. -/
theorem scan?_isWord (h : IsWord word) (ht : wordToken? word = some t) (hrest : EndsWord rest)
    (found : List Token) :
    scan? .between found (word ++ rest) = scan? .between (t :: found) rest := by
  rw [scan?_start h]
  cases rest with
  | nil =>
    simp only [scan?, Scanner.finish?, List.reverse_reverse, ht]
    rfl
  | cons d rest =>
    have hd : isWordChar d = false := hrest d rfl
    simp only [scan?, Scanner.step?, hd, List.reverse_reverse, ht]
    cases meet? d with
    | none => rfl
    | some next => simp

/-- The token of a text that is one word is that of the word. -/
theorem tokens?_isWord (h : IsWord word) :
    tokens? word = (wordToken? word).map fun t => [t] := by
  have hscan := scan?_start h [] []
  rw [List.append_nil] at hscan
  rw [tokens?, hscan, scan?, Scanner.finish?, List.reverse_reverse, Option.map_map]
  rfl

end Words

section Strings

/-- The piece of a string that a written character is: controls without a letter of their own are
written as code units. -/
def writtenPiece (c : Char) : Piece :=
  if c.toNat < 0x20 ∧ c ∉ ['\x08', '\x0c', '\n', '\r', '\t'] then .unit c.toNat else .char c

/-- The hexadecimal digits are read back. -/
theorem hexValue?_digitChar {n : Nat} (h : n < 16) : hexValue? (Nat.digitChar n) = some n := by
  have hall : ∀ n < 16, hexValue? (Nat.digitChar n) = some n := by decide
  exact hall n h

/-- A written character is scanned to its piece. -/
theorem scan?_escapeChar (c : Char) (pieces : List Piece) (found : List Token)
    (rest : List Char) : scan? (.text pieces) found (escapeChar c ++ rest) =
      scan? (.text (writtenPiece c :: pieces)) found rest := by
  by_cases hquote : c = '"'
  · subst hquote
    rfl
  by_cases hbackslash : c = '\\'
  · subst hbackslash
    rfl
  by_cases hletter : c ∈ ['\x08', '\x0c', '\n', '\r', '\t']
  · simp only [List.mem_cons, List.not_mem_nil, or_false] at hletter
    rcases hletter with rfl | rfl | rfl | rfl | rfl <;> rfl
  have hpiece := hletter
  simp only [List.mem_cons, List.not_mem_nil, or_false, not_or] at hletter
  obtain ⟨h1, h2, h3, h4, h5⟩ := hletter
  by_cases hcontrol : c.toNat < 0x20
  · have htext : escapeChar c = ['\\', 'u', '0', '0', Nat.digitChar (c.toNat / 16),
        Nat.digitChar (c.toNat % 16)] := by
      simp only [escapeChar, hquote, hbackslash, h1, h2, h3, h4, h5, hcontrol, if_false, if_true]
    have hhigh : hexValue? (Nat.digitChar (c.toNat / 16)) = some (c.toNat / 16) :=
      hexValue?_digitChar (by omega)
    have hlow : hexValue? (Nat.digitChar (c.toNat % 16)) = some (c.toNat % 16) :=
      hexValue?_digitChar (by omega)
    have hzero : hexValue? '0' = some 0 := rfl
    have hcode : 16 * (c.toNat / 16) + c.toNat % 16 = c.toNat := Nat.div_add_mod ..
    rw [htext, writtenPiece, if_pos ⟨hcontrol, hpiece⟩]
    simp [scan?, Scanner.step?, hzero, hhigh, hlow, hcode]
  · have htext : escapeChar c = [c] := by
      simp only [escapeChar, hquote, hbackslash, h1, h2, h3, h4, h5, hcontrol, if_false]
    rw [htext, writtenPiece, if_neg fun h => hcontrol h.1]
    simp [scan?, Scanner.step?, hquote, hbackslash, hcontrol]

/-- A code unit that is no surrogate is the character of that code. -/
theorem pieceChars?_unit {u : Nat} (h : u < 0xd800) (pieces : List Piece) :
    pieceChars? (.unit u :: pieces) = (pieceChars? pieces).map (Char.ofNat u :: ·) := by
  have hhigh : isHighSurrogate u = false := by
    simp only [isHighSurrogate, Bool.and_eq_false_iff, decide_eq_false_iff_not]
    omega
  have hlow : isLowSurrogate u = false := by
    simp only [isLowSurrogate, Bool.and_eq_false_iff, decide_eq_false_iff_not]
    omega
  rcases pieces with _ | ⟨c | low, pieces⟩ <;> simp [pieceChars?, hhigh, hlow]

/-- The pieces of written characters are those characters. -/
theorem pieceChars?_writtenPiece (chars : List Char) :
    pieceChars? (chars.map writtenPiece) = some chars := by
  induction chars with
  | nil => rfl
  | cons c chars ih =>
    rw [List.map_cons, writtenPiece]
    split
    · next hcontrol =>
      have hcode : c.toNat < 0xd800 := by omega
      rw [pieceChars?_unit hcode, ih, Option.map_some, Char.ofNat_toNat]
    · rw [pieceChars?, ih, Option.map_some]

/-- The text of a string is scanned to the string. -/
theorem scan?_writeString (s : String) (found : List Token) (rest : List Char) :
    scan? .between found (writeString s ++ rest) =
      scan? .between (.string (some s) :: found) rest := by
  have hchars : ∀ (chars : List Char) (pieces : List Piece),
      scan? (.text pieces) found (chars.flatMap escapeChar ++ '"' :: rest) =
        scan? (.text ((chars.map writtenPiece).reverse ++ pieces)) found ('"' :: rest) := by
    intro chars
    induction chars with
    | nil => exact fun _ => rfl
    | cons c chars ih =>
      intro pieces
      rw [List.flatMap_cons, List.append_assoc, scan?_escapeChar, ih, List.map_cons,
        List.reverse_cons, List.append_assoc]
      rfl
  have hstart : scan? .between found (writeString s ++ rest) =
      scan? (.text []) found (s.toList.flatMap escapeChar ++ '"' :: rest) := by
    simp only [writeString, List.cons_append, List.append_assoc, List.nil_append]
    rfl
  rw [hstart, hchars]
  simp [scan?, Scanner.step?, pieceChars?_writtenPiece]

end Strings

/-- The text of a number is read back as the same number. -/
def Number.ReadsBack (n : Number) : Prop := parse? (render (.number n)) = some (.number n)

/-- A number is read back when its word is. -/
theorem Number.readsBack_iff (n : Number) :
    n.ReadsBack ↔ wordToken? n.write = some (.number (some n)) := by
  have hparse : parse? (render (.number n)) = (wordToken? n.write).bind fun t => ofTokens? [t] := by
    rw [parse?, render, String.toList_ofList, Json.write, tokens?_isWord n.isWord_write]
    cases wordToken? n.write <;> rfl
  rw [ReadsBack, hparse]
  constructor
  · intro h
    obtain ⟨t, ht, hnumber⟩ := Option.bind_eq_some_iff.1 h
    rw [ht]
    cases t with
    | number m =>
      cases m with
      | some m =>
        cases hnumber
        rfl
      | none => cases hnumber
    | string s => cases s <;> cases hnumber
    | _ => cases hnumber
  · intro h
    rw [h]
    rfl

instance (n : Number) : Decidable n.ReadsBack := decidable_of_iff _ n.readsBack_iff.symm

-- Reading scales the digits by a rounded power of ten and so misses the number nearest to
-- 0.9622222222222223.
example : ¬ (Number.float ⟨0x3feeca8641fdb976⟩).ReadsBack := by decide +kernel

/-- An integer within 64 bits, signed or not, is read back. -/
theorem Number.readsBack_integer {i : Int} (hmin : Int64.minValue.toInt ≤ i)
    (hmax : i < UInt64.size) : (Number.integer i).ReadsBack :=
  (readsBack_iff _).2 (wordToken?_writeInt hmin hmax)

mutual

/-- Nothing of the document is lost in its text: no part is unreadable, and every number is read
back. -/
def Lasting : Json → Prop
  | .number n => n.ReadsBack
  | .array items => LastingItems items
  | .object fields => LastingFields fields
  | .unreadable => False
  | _ => True

/-- Nothing of any item is lost in its text. -/
def LastingItems : List Json → Prop
  | [] => True
  | j :: rest => Lasting j ∧ LastingItems rest

/-- Nothing of any field is lost in its text. -/
def LastingFields : List (String × Json) → Prop
  | [] => True
  | (_, j) :: rest => Lasting j ∧ LastingFields rest

end

/-- Nothing of an array is lost when nothing of its items is. -/
theorem lasting_array {items : List Json} : (array items).Lasting ↔ ∀ j ∈ items, j.Lasting := by
  rw [Lasting]
  induction items with
  | nil => simp [LastingItems]
  | cons j items ih => rw [LastingItems, ih, List.forall_mem_cons]

/-- Nothing of an object is lost when nothing of its fields is. -/
theorem lasting_object {fields : List (String × Json)} :
    (object fields).Lasting ↔ ∀ f ∈ fields, f.2.Lasting := by
  rw [Lasting]
  induction fields with
  | nil => simp [LastingFields]
  | cons f fields ih => rw [LastingFields, ih, List.forall_mem_cons]

/-- What follows a punctuation mark is scanned between tokens. -/
theorem endsWord_cons {c : Char} (h : isWordChar c = false) (rest : List Char) :
    EndsWord (c :: rest) := fun _ hd => Option.some.inj hd ▸ h

mutual

/-- The text of a document is scanned to its tokens. -/
theorem scan?_write : ∀ {j : Json} {rest : List Char}, j.Lasting → EndsWord rest →
    ∀ found, scan? .between found (write j ++ rest) =
      scan? .between ((tokens j).reverse ++ found) rest
  | .null, _, _, hrest, found => scan?_isWord (isWord_of_all rfl) rfl hrest found
  | .bool true, _, _, hrest, found => scan?_isWord (isWord_of_all rfl) rfl hrest found
  | .bool false, _, _, hrest, found => scan?_isWord (isWord_of_all rfl) rfl hrest found
  | .number n, _, h, hrest, found =>
    scan?_isWord n.isWord_write ((Number.readsBack_iff n).1 h) hrest found
  | .string s, rest, _, _, found => scan?_writeString s found rest
  | .array items, rest, h, _, found => by
    rw [Lasting] at h
    have hitems := scan?_writeItems h rest (.openArray :: found)
    rw [write, tokens, List.reverse_cons, List.append_assoc]
    exact hitems
  | .object fields, rest, h, _, found => by
    rw [Lasting] at h
    have hfields := scan?_writeFields h rest (.openObject :: found)
    rw [write, tokens, List.reverse_cons, List.append_assoc]
    exact hfields

/-- The text of an array's items is scanned to their tokens. -/
theorem scan?_writeItems : ∀ {items : List Json}, LastingItems items → ∀ rest found,
    scan? .between found (writeItems items ++ rest) =
      scan? .between ((itemTokens items).reverse ++ found) rest
  | [], _, _, _ => rfl
  | [j], h, rest, found => by
    rw [LastingItems] at h
    have hends : EndsWord (']' :: rest) := endsWord_cons (by decide) rest
    rw [writeItems, itemTokens, List.append_assoc, List.reverse_append, List.append_assoc]
    exact scan?_write h.1 hends found
  | j :: k :: items, h, rest, found => by
    rw [LastingItems] at h
    have hends : EndsWord (',' :: (writeItems (k :: items) ++ rest)) := endsWord_cons (by decide) _
    have hitems := scan?_writeItems h.2 rest (.comma :: ((tokens j).reverse ++ found))
    have hcomma : scan? .between ((tokens j).reverse ++ found)
          (',' :: (writeItems (k :: items) ++ rest)) =
        scan? .between
          ((itemTokens (k :: items)).reverse ++ .comma :: ((tokens j).reverse ++ found)) rest := hitems
    simpa [writeItems, itemTokens, scan?_write h.1 hends] using hcomma

/-- The text of an object's fields is scanned to their tokens. -/
theorem scan?_writeFields : ∀ {fields : List (String × Json)}, LastingFields fields →
    ∀ rest found, scan? .between found (writeFields fields ++ rest) =
      scan? .between ((fieldTokens fields).reverse ++ found) rest
  | [], _, _, _ => rfl
  | [(key, j)], h, rest, found => by
    rw [LastingFields] at h
    have hends : EndsWord ('\x7d' :: rest) := endsWord_cons (by decide) rest
    have hvalue := scan?_write h.1 hends (.colon :: .string (some key) :: found)
    have hcolon : scan? .between (.string (some key) :: found)
          (':' :: (write j ++ '\x7d' :: rest)) =
        scan? .between
          (.closeObject :: ((tokens j).reverse ++ .colon :: .string (some key) :: found)) rest := hvalue
    simpa [writeFields, fieldTokens, scan?_writeString] using hcolon
  | (key, j) :: f :: fields, h, rest, found => by
    rw [LastingFields] at h
    have hends : EndsWord (',' :: (writeFields (f :: fields) ++ rest)) :=
      endsWord_cons (by decide) _
    have hvalue := scan?_write h.1 hends (.colon :: .string (some key) :: found)
    have hfields := scan?_writeFields h.2 rest
      (.comma :: ((tokens j).reverse ++ .colon :: .string (some key) :: found))
    have hcolon : scan? .between (.string (some key) :: found)
          (':' :: (write j ++ ',' :: (writeFields (f :: fields) ++ rest))) =
        scan? .between ((fieldTokens (f :: fields)).reverse ++
          .comma :: ((tokens j).reverse ++ .colon :: .string (some key) :: found)) rest :=
      hvalue.trans hfields
    simpa [writeFields, fieldTokens, scan?_writeString] using hcolon

end

/-- The text of a document is cut into its tokens. -/
theorem tokens?_write {j : Json} (h : j.Lasting) : tokens? (write j) = some j.tokens := by
  have hends : EndsWord [] := fun _ hc => by cases hc
  have hscan := scan?_write h hends []
  rw [List.append_nil, List.append_nil] at hscan
  rw [tokens?, hscan, scan?, Scanner.finish?, Option.map_some, List.reverse_nil, List.nil_append,
    List.reverse_reverse]

end BranchingStory.Json
