import BranchingStory.GameState
import BranchingStory.Proofs.Operator.Sequence
import BranchingStory.Proofs.World.InPlace

/-!
# Maps that are merged and keys that are taken away

To a map, addition puts the entries of another one and subtraction takes keys away, so their laws
are those of putting and removing entries. Settings are changed by the same addition. An operand of
another type is refused before anything is changed.
-/

namespace BranchingStory

/-- A modification fails when its operator fails on the value that is stored. -/
theorem World.exists_step_modify_error {w : World} {target : EntityId} {e : Entity}
    (he : w.stored? target = some e) {key : String} {op : Operator} {operand : Value}
    (hop : op ≠ .equal) {refusal : AttributeError}
    (h : op.apply key (e.attribute? key) operand = .error refusal) :
    ∃ error, w.step (.modify target key op operand) = .error error := by
  unfold World.step
  dsimp only
  split
  · exact ⟨_, rfl⟩
  · next live hlive =>
    obtain rfl : e = live := Option.some.inj (he.symm.trans (Option.filter_eq_some_iff.1 hlive).1)
    have hmodify : ∃ error, e.modifyAttribute key op operand = .error error := by
      unfold Entity.modifyAttribute
      split
      · exact ⟨_, rfl⟩
      · exact ⟨refusal, by rw [h]⟩
    obtain ⟨error, hmodify⟩ := hmodify
    split
    · exact ⟨_, rfl⟩
    · split
      · exact ⟨_, rfl⟩
      · exact ⟨_, by rw [hmodify]⟩

namespace Operator

variable {m : Entries Value}

/-- The operand that names keys of a map. -/
def textKeys (names : List String) : Value := .list (names.map .text)

/-- The texts of a list of texts are these texts. -/
theorem keyTexts_map_text (names : List String) : keyTexts (names.map .text) = .ok names := by
  induction names with
  | nil => rfl
  | cons name names ih => rw [List.map_cons, keyTexts, ih]

/-- A list with an item that is no text has no key texts, but a first such item. -/
theorem keyTexts_eq_error {keys : List Value} (h : ∃ v ∈ keys, v.text? = none) :
    ∃ v ∈ keys, v.text? = none ∧ keyTexts keys = .error v.type := by
  induction keys with
  | nil =>
    obtain ⟨v, hv, -⟩ := h
    cases hv
  | cons first keys ih =>
    cases first with
    | text s =>
      obtain ⟨v, hv, hnone⟩ := h
      have hv : v ∈ keys := (List.mem_cons.1 hv).resolve_left (by rintro rfl; cases hnone)
      obtain ⟨w, hw, hwnone, herror⟩ := ih ⟨v, hv, hnone⟩
      exact ⟨w, List.mem_cons_of_mem _ hw, hwnone, by rw [keyTexts, herror]⟩
    | _ => exact ⟨_, List.mem_cons_self, rfl, rfl⟩

/-- Adding a map puts its entries. -/
theorem apply_add_map (key : String) (m more : Entries Value) :
    apply .add key (some (.map m)) (.map more) = .ok (some (.map (Entries.putAll m more))) := rfl

/-- Subtracting text keys from a map takes them away. -/
theorem apply_subtract_textKeys (key : String) (m : Entries Value) (names : List String) :
    apply .subtract key (some (.map m)) (textKeys names) =
      .ok (some (.map (Entries.removeAll names m))) := by
  unfold apply textKeys
  simp only [present?, Value.isNull, Bool.false_eq_true, if_false, difference, keyTexts_map_text]

/-- Subtracting keys of which one is no text is an error about the first such key. -/
theorem apply_subtract_eq_error (key : String) (m : Entries Value) {keys : List Value}
    (h : ∃ v ∈ keys, v.text? = none) :
    ∃ v ∈ keys, v.text? = none ∧
      apply .subtract key (some (.map m)) (.list keys) =
        .error (.typeMismatch key .textKey v.type) := by
  obtain ⟨v, hv, hnone, herror⟩ := keyTexts_eq_error h
  refine ⟨v, hv, hnone, ?_⟩
  unfold apply
  simp only [present?, Value.isNull, Bool.false_eq_true, if_false, difference, herror]

/-- Additions of maps are associative, and repeating one changes nothing further. The sum has the
entries of the first map in place, with the values of the second one where it has any, and then its
new entries in order; so it is what the settings of a game become. Subtraction leaves the entries
whose names are not taken away, in order, whatever the order and the repetition of the names, and an
addition before a subtraction of the same names makes no difference. Keys of which one is no text
are refused, and the world stays as it is. -/
theorem map_laws (key : String) (m n p : Entries Value) (hm : m.Distinct) (hn : n.Distinct) :
    let current := some (Value.map m)
    (∃ np, apply .add key (some (.map n)) (.map p) = .ok (some (.map np)) ∧
      applyAll key current [(.add, .map n), (.add, .map p)] =
        applyAll key current [(.add, .map np)]) ∧
      (∀ count, applyAll key current (List.replicate (count + 1) (.add, .map n)) =
        applyAll key current [(.add, .map n)]) ∧
      apply .add key current (.map n) = .ok (some (.map
        (m.map (fun e => (e.1, (Entries.value? e.1 n).getD e.2)) ++
          n.filter fun e => decide (e.1 ∉ Entries.keys m)))) ∧
      apply .add key current (.map n) = .ok (some (.map ((GameState.mk m).apply n).settings)) ∧
      (∀ names, apply .subtract key current (textKeys names) =
        .ok (some (.map (m.filter fun e => decide (e.1 ∉ names))))) ∧
      (∀ names others : List String, (∀ name, name ∈ names ↔ name ∈ others) →
        apply .subtract key current (textKeys names) =
          apply .subtract key current (textKeys others)) ∧
      applyAll key current [(.add, .map n), (.subtract, textKeys (Entries.keys n))] =
        applyAll key current [(.subtract, textKeys (Entries.keys n))] ∧
      ∀ keys : List Value, (∃ v ∈ keys, v.text? = none) →
        (∃ v ∈ keys, v.text? = none ∧ apply .subtract key current (.list keys) =
          .error (.typeMismatch key .textKey v.type)) ∧
        ∀ (w : World) (target : EntityId) (e : Entity), w.stored? target = some e →
          e.attribute? key = current →
          let op := Operation.modify target key .subtract (.list keys)
          ∃ error, (World.attempt op).run w = (⟨op, some error⟩, w) := by
  intro current
  have hadd := apply_add_map key m n
  refine ⟨⟨_, apply_add_map key n p, ?_⟩, fun count => ?_, ?_, hadd, fun names => ?_,
    fun names others h => ?_, ?_, fun keys hkeys => ?_⟩
  · rw [applyAll_cons hadd, applyAll_cons (apply_add_map ..), applyAll_cons (apply_add_map ..),
      Entries.putAll_assoc hn]
  · have hagain := apply_add_map key (Entries.putAll m n) n
    rw [Entries.putAll_assoc hn, Entries.putAll_self hn] at hagain
    rw [applyAll_replicate hadd hagain, applyAll_cons hadd]
    rfl
  · rw [← Entries.putAll_eq hm hn]
    exact hadd
  · have hfilter : (m.filter fun e => decide (e.1 ∉ names)) = Entries.removeAll names m :=
      List.filter_congr fun e _ => by simp
    rw [hfilter]
    exact apply_subtract_textKeys key m names
  · rw [apply_subtract_textKeys, apply_subtract_textKeys, Entries.removeAll_congr h]
  · have hrest : Entries.removeAll (Entries.keys n) (Entries.putAll m n) =
        Entries.removeAll (Entries.keys n) m :=
      Entries.removeAll_putAll (fun e he => List.mem_map_of_mem he) m
    rw [applyAll_cons hadd, applyAll_cons (apply_subtract_textKeys ..), hrest,
      applyAll_cons (apply_subtract_textKeys ..)]
  · obtain ⟨v, hv, hnone, herror⟩ := apply_subtract_eq_error key m hkeys
    refine ⟨⟨v, hv, hnone, herror⟩, fun w target e he hvalue => ?_⟩
    have hstored : apply .subtract key (e.attribute? key) (.list keys) =
        .error (.typeMismatch key .textKey v.type) := by rw [hvalue]; exact herror
    have hop : Operator.subtract ≠ .equal := by decide
    obtain ⟨error, hstep⟩ := World.exists_step_modify_error he hop hstored
    refine ⟨error, ?_⟩
    rw [World.run_attempt, World.applyOne, hstep]

/-- The second map has one name of the first one, and the third one a name of each. -/
theorem map_laws_overlapping :
    let m : Entries Value := [("a", .int 1), ("b", .int 2)]
    let n : Entries Value := [("b", .int 3), ("c", .null)]
    let p : Entries Value := [("c", .text "x"), ("a", .int 4)]
    let cup : EntityId := ⟨.item, "cup"⟩
    let w := World.empty.store cup ⟨cup, [("bag", .map m)], false⟩
    let current := some (Value.map m)
    let op := Operation.modify cup "bag" .subtract (.list [.text "a", .int 7, .null])
    m.Distinct ∧ n.Distinct ∧
      applyAll "bag" current [(.add, .map n), (.add, .map p)] =
        .ok (some (.map [("a", .int 4), ("b", .int 3), ("c", .text "x")])) ∧
      apply .add "bag" current (.map n) =
        .ok (some (.map [("a", .int 1), ("b", .int 3), ("c", .null)])) ∧
      apply .subtract "bag" current (textKeys ["b", "c", "b"]) =
        .ok (some (.map [("a", .int 1)])) ∧
      applyAll "bag" current [(.add, .map n), (.subtract, textKeys ["b", "c"])] =
        .ok (some (.map [("a", .int 1)])) ∧
      ∃ error, (World.attempt op).run w = (⟨op, some error⟩, w) := by
  intro m n p cup w current op
  have hm : m.Distinct := by simp [m, Entries.Distinct, Entries.keys]
  have hn : n.Distinct := by simp [n, Entries.Distinct, Entries.keys]
  obtain ⟨⟨np, hnp, hassoc⟩, -, hadd, -, hsubtract, -, hboth, hrefused⟩ :=
    map_laws "bag" m n p hm hn
  obtain rfl : np = [("b", .int 3), ("c", .text "x"), ("a", .int 4)] := by
    cases hnp
    rfl
  refine ⟨hm, hn, hassoc, hadd, hsubtract ["b", "c", "b"], hboth, ?_⟩
  have hnoText : ∃ v ∈ [Value.text "a", .int 7, .null], v.text? = none :=
    ⟨.int 7, by simp, rfl⟩
  exact (hrefused _ hnoText).2 w cup _ rfl rfl

end Operator

end BranchingStory
