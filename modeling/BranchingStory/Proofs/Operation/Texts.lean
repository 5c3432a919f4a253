import BranchingStory.Operation.Outcome
import Mathlib.Data.List.Forall2

/-!
# Texts of operations and errors

An operation is shown by what it does, to what and with what, and an error by what was refused. The
texts are given here letter for letter, as relations with one rule for each form, and what is
written is the one text that the rules give. Only quoted texts and floating point numbers are left
to the definitions that write them.
-/

namespace BranchingStory

/-- An entity is shown by the name of its kind and its id. -/
inductive EntityId.ShownAs : EntityId → String → Prop
  | item (id : String) : ShownAs ⟨.item, id⟩ ("Item:" ++ id)
  | character (id : String) : ShownAs ⟨.character, id⟩ ("Character:" ++ id)
  | place (id : String) : ShownAs ⟨.place, id⟩ ("Place:" ++ id)

/-- An operator is shown by its symbol. -/
inductive Operator.ShownAs : Operator → String → Prop
  | equal : ShownAs .equal "="
  | add : ShownAs .add "+="
  | subtract : ShownAs .subtract "-="

/-- A type is shown by its name. -/
inductive ValueType.ShownAs : ValueType → String → Prop
  | null : ShownAs .null "null"
  | bool : ShownAs .bool "bool"
  | int : ShownAs .int "int"
  | float : ShownAs .float "float"
  | text : ShownAs .text "text"
  | list : ShownAs .list "list"
  | ref : ShownAs .ref "ref"
  | map : ShownAs .map "map"

/-- An expectation is shown by what is expected. -/
inductive Expected.ShownAs : Expected → String → Prop
  | bool : ShownAs .bool "bool"
  | map : ShownAs .map "map"
  | textKey : ShownAs .textKey "text key"

/-- A list is shown by its items in brackets and a map by its entries in braces. -/
inductive Value.ShownAs : Value → String → Prop
  | null : ShownAs .null "null"
  | true : ShownAs (.bool .true) "true"
  | false : ShownAs (.bool .false) "false"
  | int (i : Int64) : ShownAs (.int i) (toString i.toInt)
  | float (x : Binary64) : ShownAs (.float x) (String.ofList x.plainText)
  | text (s : String) : ShownAs (.text s) (Text.quoted s)
  | list {items : List Value} {texts : List String} (h : List.Forall₂ ShownAs items texts) :
    ShownAs (.list items) ("[" ++ ", ".intercalate texts ++ "]")
  | ref {target : EntityId} {shown : String} (h : target.ShownAs shown) :
    ShownAs (.ref target) ("@" ++ shown)
  | map {entries : List (String × Value)} {texts : List String}
    (h : List.Forall₂ ShownAs (entries.map Prod.snd) texts) :
    ShownAs (.map entries) ("\x7b" ++
      ", ".intercalate (List.zipWith (fun e text => e.1 ++ ": " ++ text) entries texts) ++ "\x7d")

/-- An operation is shown by what it does to its target. -/
inductive Operation.ShownAs : Operation → String → Prop
  | create {target : EntityId} {shown : String} (h : target.ShownAs shown)
    (attributes : Entries Value) : ShownAs (.create target attributes) ("create " ++ shown)
  | modify {target : EntityId} {op : Operator} {value : Value} {shown symbol text : String}
    (htarget : target.ShownAs shown) (key : String) (hop : op.ShownAs symbol)
    (hvalue : value.ShownAs text) : ShownAs (.modify target key op value)
      ("modify " ++ shown ++ "." ++ key ++ " " ++ symbol ++ " " ++ text)
  | delete {target : EntityId} {shown : String} (h : target.ShownAs shown) :
    ShownAs (.delete target) ("delete " ++ shown)

/-- What is said when an attribute refuses a value. -/
inductive AttributeError.SaidAs : AttributeError → String → Prop
  | readOnly (key : String) : SaidAs (.readOnly key) ("attribute '" ++ key ++ "' is read-only")
  | coreOperator (key : String) {op : Operator} {symbol : String} (hop : op.ShownAs symbol) :
    SaidAs (.coreOperator key op)
      ("core attribute '" ++ key ++ "' does not support operator '" ++ symbol ++ "'")
  | typeMismatch (key : String) {expected : Expected} {found : ValueType} {wanted given : String}
    (hexpected : expected.ShownAs wanted) (hfound : found.ShownAs given) :
    SaidAs (.typeMismatch key expected found)
      ("attribute '" ++ key ++ "' expects " ++ wanted ++ ", got " ++ given)
  | unsupported (key : String) {op : Operator} {current operand : ValueType}
    {symbol first second : String} (hop : op.ShownAs symbol) (hcurrent : current.ShownAs first)
    (hoperand : operand.ShownAs second) : SaidAs (.unsupported key op current operand)
      ("operator '" ++ symbol ++ "' unsupported for " ++ first ++ " and " ++ second ++ " on '" ++
        key ++ "'")
  | overflow (key : String) : SaidAs (.overflow key) ("integer overflow on '" ++ key ++ "'")
  | unknownOperator (symbol : String) :
    SaidAs (.unknownOperator symbol) ("unknown operator: " ++ symbol)

/-- What is said when an operation fails. -/
inductive OperationError.SaidAs : OperationError → String → Prop
  | alreadyExists {target : EntityId} {shown : String} (h : target.ShownAs shown) :
    SaidAs (.alreadyExists target) (shown ++ " already exists")
  | notFound {target : EntityId} {shown : String} (h : target.ShownAs shown) :
    SaidAs (.notFound target) (shown ++ " not found")
  | missingKey {target : EntityId} {shown : String} (h : target.ShownAs shown) :
    SaidAs (.missingKey target) ("invalid modify on " ++ shown ++ ": missing attribute key")
  | missingValue {target : EntityId} {shown : String} (h : target.ShownAs shown) :
    SaidAs (.missingValue target) ("invalid modify on " ++ shown ++ ": missing value")
  | refused {target : EntityId} {error : AttributeError} {shown said : String}
    (htarget : target.ShownAs shown) (herror : error.SaidAs said) :
    SaidAs (.refused target error) (shown ++ ": " ++ said)

variable {text : String}

/-- The text of an entity is the one that it is shown as. -/
theorem EntityId.shownAs_iff {e : EntityId} : e.ShownAs text ↔ text = e.display := by
  constructor
  · rintro (_ | _ | _) <;> rfl
  · rintro rfl
    obtain ⟨kind, id⟩ := e
    cases kind
    · exact .item id
    · exact .character id
    · exact .place id

/-- The symbol of an operator is what it is shown as. -/
theorem Operator.shownAs_iff {op : Operator} : op.ShownAs text ↔ text = op.symbol := by
  constructor
  · rintro (_ | _ | _) <;> rfl
  · rintro rfl
    cases op <;> constructor

/-- The name of a type is what it is shown as. -/
theorem ValueType.shownAs_iff {type : ValueType} : type.ShownAs text ↔ text = type.name := by
  constructor
  · rintro (_ | _) <;> rfl
  · rintro rfl
    cases type <;> constructor

/-- The name of an expectation is what it is shown as. -/
theorem Expected.shownAs_iff {expected : Expected} :
    expected.ShownAs text ↔ text = expected.name := by
  constructor
  · rintro (_ | _) <;> rfl
  · rintro rfl
    cases expected <;> constructor

namespace Value

/-- An integer is shown in decimal. -/
theorem display_int (i : Int64) : (int i).display = toString i.toInt := by
  rw [← String.toList_inj, Int.toString_eq_repr, Int.repr_eq_if]
  simp only [display, shown, String.toList_ofList, Int64.lt_iff_toInt_lt, Int64.toInt_zero]
  rcases Int.lt_or_le i.toInt 0 with h | h
  · have habs : (-i.toInt).toNat = i.toInt.natAbs := by omega
    simp [h, Int.not_le.2 h, habs, Nat.toList_repr]
  · have habs : i.toInt.toNat = i.toInt.natAbs := by omega
    simp [h, Int.not_lt.2 h, habs, Nat.toList_repr]

/-- A text is shown between quotes. -/
theorem display_text (s : String) : (Value.text s).display = Text.quoted s := String.ofList_toList

/-- A reference is shown by its target behind an at sign. -/
theorem display_ref (target : EntityId) : (ref target).display = "@" ++ target.display := by
  rw [← String.toList_inj, display, shown, String.toList_ofList, String.toList_append]
  rfl

/-- The items of a list are shown with commas between them. -/
theorem shownItems_eq (items : List Value) :
    shownItems items = [',', ' '].intercalate (items.map shown) ++ [']'] := by
  induction items with
  | nil => rfl
  | cons v items ih =>
    cases items with
    | nil => simp [shownItems]
    | cons w items => simp [shownItems, ih]

/-- A list is shown by its items in brackets. -/
theorem display_list (items : List Value) :
    (list items).display = "[" ++ ", ".intercalate (items.map display) ++ "]" := by
  have hshown : String.toList ∘ display = shown := funext fun v => String.toList_ofList
  rw [← String.toList_inj]
  simp [display, shown, shownItems_eq, hshown]

/-- The entries of a map are shown with commas between them. -/
theorem shownEntries_eq (entries : List (String × Value)) :
    shownEntries entries =
      [',', ' '].intercalate (entries.map fun e => e.1.toList ++ [':', ' '] ++ shown e.2) ++
        ['\x7d'] := by
  induction entries with
  | nil => rfl
  | cons e entries ih =>
    cases entries with
    | nil => simp [shownEntries]
    | cons f entries => simp [shownEntries, ih]

/-- A map is shown by its entries in braces. -/
theorem display_map (entries : List (String × Value)) :
    (map entries).display =
      "\x7b" ++ ", ".intercalate (entries.map fun e => e.1 ++ ": " ++ e.2.display) ++ "\x7d" := by
  have hshown : (String.toList ∘ fun e : String × Value => e.1 ++ ": " ++ e.2.display) =
      fun e => e.1.toList ++ [':', ' '] ++ shown e.2 :=
    funext fun e => by simp [display]
  rw [← String.toList_inj, display, shown, shownEntries_eq]
  simp only [String.toList_append, String.toList_intercalate, List.map_map, hshown]
  simp

mutual

/-- A value is shown as its text and as no other. -/
theorem shownAs_iff : ∀ {v : Value} {text : String}, v.ShownAs text ↔ text = v.display
  | .null, _ => ⟨fun h => by cases h; rfl, fun h => h ▸ .null⟩
  | .bool .true, _ => ⟨fun h => by cases h; rfl, fun h => h ▸ .true⟩
  | .bool .false, _ => ⟨fun h => by cases h; rfl, fun h => h ▸ .false⟩
  | .int i, _ => by
    rw [display_int]
    exact ⟨fun h => by cases h; rfl, fun h => h ▸ .int i⟩
  | .float x, _ => ⟨fun h => by cases h; rfl, fun h => h ▸ .float x⟩
  | .text s, _ => by
    rw [display_text]
    exact ⟨fun h => by cases h; rfl, fun h => h ▸ .text s⟩
  | .list items, _ => by
    rw [display_list]
    refine ⟨fun h => ?_, fun h => h ▸ .list (forall₂_shownAs_iff.2 rfl)⟩
    cases h with
    | list h => rw [forall₂_shownAs_iff.1 h]
  | .ref target, _ => by
    rw [display_ref]
    refine ⟨fun h => ?_, fun h => h ▸ .ref (EntityId.shownAs_iff.2 rfl)⟩
    cases h with
    | ref h => rw [EntityId.shownAs_iff.1 h]
  | .map entries, _ => by
    have htexts : List.zipWith (fun e text => e.1 ++ ": " ++ text) entries
        (entries.map fun e => e.2.display) = entries.map fun e => e.1 ++ ": " ++ e.2.display := by
      rw [List.zipWith_map_right, List.zipWith_self]
    rw [display_map, ← htexts]
    refine ⟨fun h => ?_, fun h => h ▸ .map (forall₂_values_shownAs_iff.2 rfl)⟩
    cases h with
    | map h => rw [forall₂_values_shownAs_iff.1 h]

/-- Items are shown as their texts and as no others. -/
theorem forall₂_shownAs_iff : ∀ {items : List Value} {texts : List String},
    List.Forall₂ ShownAs items texts ↔ texts = items.map display
  | [], texts => by rw [List.forall₂_nil_left_iff, List.map_nil]
  | v :: items, texts => by
    rw [List.forall₂_cons_left_iff, List.map_cons]
    constructor
    · rintro ⟨text, rest, hv, hitems, rfl⟩
      rw [shownAs_iff.1 hv, forall₂_shownAs_iff.1 hitems]
    · rintro rfl
      exact ⟨_, _, shownAs_iff.2 rfl, forall₂_shownAs_iff.2 rfl, rfl⟩

-- The recursion follows the entries, so the values of a map are gone through with their keys.
/-- The values of entries are shown as their texts and as no others. -/
theorem forall₂_values_shownAs_iff : ∀ {entries : List (String × Value)} {texts : List String},
    List.Forall₂ ShownAs (entries.map Prod.snd) texts ↔ texts = entries.map fun e => e.2.display
  | [], texts => by rw [List.map_nil, List.forall₂_nil_left_iff, List.map_nil]
  | (key, v) :: entries, texts => by
    rw [List.map_cons, List.forall₂_cons_left_iff, List.map_cons]
    constructor
    · rintro ⟨text, rest, hv, hentries, rfl⟩
      rw [shownAs_iff.1 hv, forall₂_values_shownAs_iff.1 hentries]
    · rintro rfl
      exact ⟨_, _, shownAs_iff.2 rfl, forall₂_values_shownAs_iff.2 rfl, rfl⟩

end

end Value

/-- An operation is shown as its text and as no other. -/
theorem Operation.shownAs_iff {op : Operation} : op.ShownAs text ↔ text = op.display := by
  constructor
  · rintro (⟨h, _⟩ | ⟨htarget, _, hop, hvalue⟩ | h)
    · rw [EntityId.shownAs_iff.1 h, display]
    · rw [EntityId.shownAs_iff.1 htarget, Operator.shownAs_iff.1 hop, Value.shownAs_iff.1 hvalue,
        display]
    · rw [EntityId.shownAs_iff.1 h, display]
  · rintro rfl
    cases op with
    | create target attributes => exact .create (EntityId.shownAs_iff.2 rfl) attributes
    | modify target key op value =>
      exact .modify (EntityId.shownAs_iff.2 rfl) key (Operator.shownAs_iff.2 rfl)
        (Value.shownAs_iff.2 rfl)
    | delete target => exact .delete (EntityId.shownAs_iff.2 rfl)

/-- What is said about an attribute error is its message and nothing else. -/
theorem AttributeError.saidAs_iff {error : AttributeError} :
    error.SaidAs text ↔ text = error.message := by
  constructor
  · intro h
    cases h with
    | readOnly key => rfl
    | coreOperator key hop =>
      obtain rfl := Operator.shownAs_iff.1 hop
      rfl
    | typeMismatch key hexpected hfound =>
      obtain rfl := Expected.shownAs_iff.1 hexpected
      obtain rfl := ValueType.shownAs_iff.1 hfound
      rfl
    | unsupported key hop hcurrent hoperand =>
      obtain rfl := Operator.shownAs_iff.1 hop
      obtain rfl := ValueType.shownAs_iff.1 hcurrent
      obtain rfl := ValueType.shownAs_iff.1 hoperand
      rfl
    | overflow key => rfl
    | unknownOperator symbol => rfl
  · rintro rfl
    cases error with
    | readOnly key => exact .readOnly key
    | coreOperator key op => exact .coreOperator key (Operator.shownAs_iff.2 rfl)
    | typeMismatch key expected found =>
      exact .typeMismatch key (Expected.shownAs_iff.2 rfl) (ValueType.shownAs_iff.2 rfl)
    | unsupported key op current operand =>
      exact .unsupported key (Operator.shownAs_iff.2 rfl) (ValueType.shownAs_iff.2 rfl)
        (ValueType.shownAs_iff.2 rfl)
    | overflow key => exact .overflow key
    | unknownOperator symbol => exact .unknownOperator symbol

/-- What is said about a failed operation is its message and nothing else. -/
theorem OperationError.saidAs_iff {error : OperationError} :
    error.SaidAs text ↔ text = error.message := by
  constructor
  · intro h
    cases h with
    | alreadyExists h | notFound h | missingKey h | missingValue h =>
      obtain rfl := EntityId.shownAs_iff.1 h
      rfl
    | refused htarget herror =>
      obtain rfl := EntityId.shownAs_iff.1 htarget
      obtain rfl := AttributeError.saidAs_iff.1 herror
      rfl
  · rintro rfl
    cases error with
    | alreadyExists target => exact .alreadyExists (EntityId.shownAs_iff.2 rfl)
    | notFound target => exact .notFound (EntityId.shownAs_iff.2 rfl)
    | missingKey target => exact .missingKey (EntityId.shownAs_iff.2 rfl)
    | missingValue target => exact .missingValue (EntityId.shownAs_iff.2 rfl)
    | refused target error =>
      exact .refused (EntityId.shownAs_iff.2 rfl) (AttributeError.saidAs_iff.2 rfl)

end BranchingStory
