import BranchingStory.Proofs.World.Agreement
import BranchingStory.Proofs.World.InPlace
import BranchingStory.Proofs.World.Representation
import BranchingStory.Proofs.World.RoundTrip

/-!
# Counters

An integer attribute that is added to and subtracted from counts exactly. A step is taken if 64 bits
hold the sum, and refused otherwise without a trace; operations on other entities and on other
attributes do not interfere, as long as they leave the mark of destruction alone. Under the key of a
core attribute, where an entity that was read can have an integer as well, every step is refused.
-/

namespace BranchingStory

namespace Operator

variable {o : Operator} {key : String}

/-- The integers that 64 bits hold. -/
def Fits (i : Int) : Prop := Int64.minValue.toInt ≤ i ∧ i ≤ Int64.maxValue.toInt

instance (i : Int) : Decidable (Fits i) := inferInstanceAs (Decidable (_ ∧ _))

/-- What an operator with an amount adds to a counter. -/
def gain : Operator → Int64 → Int
  | add, amount => amount.toInt
  | subtract, amount => -amount.toInt
  | equal, _ => 0

/-- Why a counter is refused a step. -/
def refusal (key : String) (o : Operator) : AttributeError :=
  if (CoreAttribute.ofKey? key).isSome then .coreOperator key o else .overflow key

/-- What 64 bits hold are the integers that come back from there. -/
theorem toInt_toInt64_eq_iff {i : Int} : i.toInt64.toInt = i ↔ Fits i := by
  constructor
  · intro h
    rw [← h]
    exact ⟨Int64.minValue_le_toInt _, Int64.toInt_le _⟩
  · intro h
    exact Int64.toInt_ofInt_of_le h.1 (Int.lt_add_one_of_le h.2)

/-- An integer result is the integer if 64 bits hold it, and an overflow otherwise. -/
theorem intResult_eq (key : String) (i : Int) :
    intResult key i = if Fits i then .ok (.int i.toInt64) else .error (.overflow key) := by
  unfold intResult
  simp only [toInt_toInt64_eq_iff]

/-- An integer with an integer operand becomes the exact sum or overflows. -/
theorem apply_int (ho : o ≠ .equal) (key : String) (n amount : Int64) :
    o.apply key (some (.int n)) (.int amount) =
      if Fits (n.toInt + o.gain amount) then .ok (some (.int (n.toInt + o.gain amount).toInt64))
      else .error (.overflow key) := by
  have hvalue : o.apply key (some (.int n)) (.int amount) =
      (intResult key (n.toInt + o.gain amount)).map some := by
    cases o with
    | equal => exact absurd rfl ho
    | add =>
      have hsum : sum key (.int n) (.int amount) = intResult key (n.toInt + gain .add amount) := rfl
      simp only [apply, present?, Value.isNull, Bool.false_eq_true, if_false, hsum]
      cases intResult key (n.toInt + gain .add amount) <;> rfl
    | subtract =>
      have hdifference : difference key (.int n) (.int amount) =
          intResult key (n.toInt + gain .subtract amount) := rfl
      simp only [apply, present?, Value.isNull, Bool.false_eq_true, if_false, hdifference]
      cases intResult key (n.toInt + gain .subtract amount) <;> rfl
  rw [hvalue, intResult_eq]
  split <;> rfl

end Operator

open Operator (Fits gain refusal)

/-- A step of an integer attribute is taken if its key is not that of a core attribute and 64 bits
hold the sum, and refused otherwise. -/
theorem Entity.modifyAttribute_int {e : Entity} {key : String} {n : Int64}
    (hn : e.attribute? key = some (.int n)) {o : Operator} (ho : o ≠ .equal) (amount : Int64) :
    e.modifyAttribute key o (.int amount) =
      if CoreAttribute.ofKey? key = none ∧ Fits (n.toInt + o.gain amount) then
        .ok { e with
          attributes := Entries.put key (.int (n.toInt + o.gain amount).toInt64) e.attributes }
      else .error (refusal key o) := by
  unfold Entity.modifyAttribute refusal
  cases hcore : CoreAttribute.ofKey? key with
  | some core => simp [ho]
  | none =>
    simp only [Option.isSome_none, Bool.false_eq_true, if_false, true_and, hn,
      Operator.apply_int ho]
    by_cases hfits : Fits (n.toInt + o.gain amount)
    · simp only [if_pos hfits]
    · simp only [if_neg hfits]

namespace Slot

variable {slot : Slot} {key : String} {n : Int64}

/-- The integer that the live entity of a slot has under a key. -/
def counter? (slot : Slot) (key : String) : Option Int64 :=
  (live? slot).bind fun e => (e.attribute? key).bind Value.int?

/-- A slot counts if it stores an entity that is not destroyed and has an integer there. -/
theorem counter?_eq_some_iff : counter? slot key = some n ↔
    ∃ e, slot = some e ∧ e.destroyed = false ∧ e.attribute? key = some (.int n) := by
  have hint : ∀ v : Value, v.int? = some n ↔ v = .int n := by
    intro v
    cases v <;> simp [Value.int?]
  simp only [counter?, Option.bind_eq_some_iff, live?_eq_some_iff, hint, and_assoc]
  exact ⟨fun ⟨e, hs, hd, v, hv, hn⟩ => ⟨e, hs, hd, hn ▸ hv⟩,
    fun ⟨e, hs, hd, hv⟩ => ⟨e, hs, hd, _, hv, rfl⟩⟩

/-- A step that is taken leaves the exact sum, and one that is refused leaves everything. -/
theorem applyOne_int (hn : counter? slot key = some n) (hblank : Text.isBlank key = false)
    {o : Operator} (ho : o ≠ .equal) (target : EntityId) (amount : Int64) :
    let op := Operation.modify target key o (.int amount)
    let total := n.toInt + o.gain amount
    (CoreAttribute.ofKey? key = none ∧ Fits total) ∧ (applyOne slot op).2 = ⟨op, none⟩ ∧
        counter? (applyOne slot op).1 key = some total.toInt64 ∨
      ¬(CoreAttribute.ofKey? key = none ∧ Fits total) ∧
        applyOne slot op = (slot, ⟨op, some (.refused target (refusal key o))⟩) := by
  intro op total
  obtain ⟨e, rfl, hd, hvalue⟩ := counter?_eq_some_iff.1 hn
  have hmodify := Entity.modifyAttribute_int hvalue ho amount
  by_cases htaken : CoreAttribute.ofKey? key = none ∧ Fits total
  · rw [if_pos htaken] at hmodify
    have hstep : step (some e) op = .ok (some { e with
        attributes := Entries.put key (.int total.toInt64) e.attributes }) := by
      simp [op, step, live?_some, hd, hblank, Value.isNull, hmodify, total]
    rw [applyOne, hstep]
    exact .inl ⟨htaken, rfl, counter?_eq_some_iff.2 ⟨_, rfl, hd, Entries.value?_put_self ..⟩⟩
  · rw [if_neg htaken] at hmodify
    have hstep : step (some e) op = .error (.refused target (refusal key o)) := by
      simp [op, step, live?_some, hd, hblank, Value.isNull, hmodify]
    rw [applyOne, hstep]
    exact .inr ⟨htaken, rfl⟩

/-- Slots that agree but for other attributes count the same. -/
theorem Agree.counter?_eq {keys : List String} {s t : Slot} (h : Agree keys s t)
    (hkey : key ∉ keys) : counter? s key = counter? t key := by
  cases h with
  | none => rfl
  | @some e f h =>
    simp only [counter?, live?_some, h.destroyed]
    cases f.destroyed with
    | true => rfl
    | false => exact congrArg (Option.bind · Value.int?) (h.value key hkey)

end Slot

namespace Operation

variable {target : EntityId} {key : String}

/-- The operation is a step of a counter: an integer is added to it or subtracted from it. -/
def Counts (target : EntityId) (key : String) (op : Operation) : Prop :=
  ∃ (o : Operator) (amount : Int64), o ≠ .equal ∧ op = .modify target key o (.int amount)

/-- The operation has nothing to do with a counter: it is on another entity, or it modifies another
attribute which is not the mark of destruction. -/
def Spares (target : EntityId) (key : String) (op : Operation) : Prop :=
  op.target ≠ target ∨
    ∃ (other : String) (o : Operator) (v : Value), op = .modify target other o v ∧ other ≠ key ∧
      CoreAttribute.ofKey? other ≠ some .destroyed

/-- What an operation adds to a counter if it succeeds. -/
def gain (target : EntityId) (key : String) : Operation → Int
  | .modify t k o (.int amount) => if t = target ∧ k = key then o.gain amount else 0
  | _ => 0

/-- A step of a counter adds what its operator makes of the amount. -/
theorem gain_modify (target : EntityId) (key : String) (o : Operator) (amount : Int64) :
    gain target key (.modify target key o (.int amount)) = o.gain amount := by
  simp [gain]

/-- What operations add to a counter if all of them succeed. -/
def gains (target : EntityId) (key : String) : List Operation → Int
  | [] => 0
  | op :: rest => op.gain target key + gains target key rest

/-- An operation that has nothing to do with a counter adds nothing to it. -/
theorem Spares.gain_eq {op : Operation} (h : op.Spares target key) : op.gain target key = 0 := by
  unfold gain
  split
  · next t k o amount =>
    refine if_neg fun hsame => ?_
    rcases h with ht | ⟨other, o', v, hop, hne, -⟩
    · exact ht hsame.1
    · cases hop
      exact hne hsame.2
  · rfl

end Operation

namespace World

variable {w : World} {target : EntityId} {key : String} {n start : Int64} {ops : List Operation}

/-- The integer that the live entity of a name has under a key. -/
def counter? (w : World) (target : EntityId) (key : String) : Option Int64 :=
  (w.live? target).bind fun e => (e.attribute? key).bind Value.int?

/-- A counter shows in the slot of its entity. -/
theorem counter?_eq (w : World) (target : EntityId) (key : String) :
    w.counter? target key = Slot.counter? (w.stored? target) key := rfl

/-- In a built world nothing is counted under the key of a core attribute. -/
theorem Built.ofKey?_eq_none (h : w.Built) (hn : w.counter? target key = some n) :
    CoreAttribute.ofKey? key = none := by
  obtain ⟨e, he, -, hvalue⟩ := Slot.counter?_eq_some_iff.1 hn
  have htidy : e.Tidy := (h.represented.1 target e he).2
  refine CoreAttribute.ofKey?_eq_none_iff.2 (htidy.noCore key ?_)
  rw [Entries.mem_keys_iff]
  exact Option.isSome_of_eq_some hvalue

/-- An operation that has nothing to do with a counter leaves it as it is. -/
theorem counter?_applyOne_of_spares {op : Operation} (hop : op.Spares target key) :
    (w.applyOne op).1.counter? target key = w.counter? target key := by
  rw [counter?_eq, counter?_eq, stored?_applyOne]
  rcases hop with ht | ⟨other, o, v, rfl, hne, hmark⟩
  · rw [if_neg ht]
  · -- What is left agrees with what was there but for the other attribute.
    have hkey : (Operation.modify target other o v).modifyKey? = some other := rfl
    have hagree := Slot.agree_applyOne (w.stored? target) hkey (List.mem_singleton_self other) hmark
    have ht : (Operation.modify target other o v).target = target := rfl
    rw [if_pos ht, ← hagree.counter?_eq (by simpa using Ne.symm hne)]

/-- A step that is taken leaves the exact sum, and one that is refused leaves the world as it is. -/
theorem applyOne_int (hn : w.counter? target key = some n) (hblank : Text.isBlank key = false)
    {o : Operator} (ho : o ≠ .equal) (amount : Int64) :
    let op := Operation.modify target key o (.int amount)
    let total := n.toInt + o.gain amount
    (CoreAttribute.ofKey? key = none ∧ Fits total) ∧ (w.applyOne op).2 = ⟨op, none⟩ ∧
        (w.applyOne op).1.counter? target key = some total.toInt64 ∨
      ¬(CoreAttribute.ofKey? key = none ∧ Fits total) ∧
        w.applyOne op = (w, ⟨op, some (.refused target (refusal key o))⟩) := by
  intro op total
  have houtcome : (w.applyOne op).2 = (Slot.applyOne (w.stored? target) op).2 :=
    outcome_applyOne w op
  rcases Slot.applyOne_int hn hblank ho target amount with ⟨htaken, hsuccess, hnext⟩ | ⟨hnot, hfail⟩
  · have ht : op.target = target := rfl
    refine .inl ⟨htaken, houtcome.trans hsuccess, ?_⟩
    rw [counter?_eq, stored?_applyOne, if_pos ht]
    exact hnext
  · refine .inr ⟨hnot, ?_⟩
    rw [hfail] at houtcome
    rcases applyOne_cases w op with ⟨hs, -⟩ | ⟨-, hw⟩
    · rw [houtcome] at hs
      cases hs
    · exact Prod.ext hw houtcome

/-- An operation that succeeds adds to a counter what it gains, and one that fails adds nothing. -/
theorem counter?_applyOne (hn : w.counter? target key = some n)
    (hblank : Text.isBlank key = false) {op : Operation}
    (hop : op.Counts target key ∨ op.Spares target key) :
    ∃ m, (w.applyOne op).1.counter? target key = some m ∧
      m.toInt = n.toInt + if (w.applyOne op).2.isSuccess then op.gain target key else 0 := by
  rcases hop with ⟨o, amount, ho, rfl⟩ | hspares
  · rcases applyOne_int hn hblank ho amount with ⟨⟨-, hfits⟩, hsuccess, hnext⟩ | ⟨-, hfail⟩
    · refine ⟨_, hnext, ?_⟩
      rw [Operator.toInt_toInt64_eq_iff.2 hfits, hsuccess, Operation.gain_modify]
      rfl
    · refine ⟨n, ?_, ?_⟩
      · rw [hfail]
        exact hn
      · rw [hfail]
        exact (Int.add_zero _).symm
  · -- Whether it succeeds or fails, what has nothing to do with the counter gains nothing.
    refine ⟨n, (counter?_applyOne_of_spares hspares).trans hn, ?_⟩
    rw [hspares.gain_eq, ite_self, Int.add_zero]

/-- A run leaves a counter at the sum of what its successful operations gain. -/
theorem counter?_apply (hn : w.counter? target key = some n) (hblank : Text.isBlank key = false)
    (hops : ∀ op ∈ ops, op.Counts target key ∨ op.Spares target key) :
    ∃ m, (w.apply ops).1.counter? target key = some m ∧
      m.toInt = n.toInt + Operation.gains target key (Outcome.successful (w.apply ops).2) := by
  induction ops generalizing w n with
  | nil => exact ⟨n, hn, (Int.add_zero _).symm⟩
  | cons op ops ih =>
    rw [List.forall_mem_cons] at hops
    obtain ⟨m, hm, hfirst⟩ := counter?_applyOne hn hblank hops.1
    obtain ⟨last, hlast, hrest⟩ := ih hm hops.2
    refine ⟨last, hlast, ?_⟩
    rw [hrest, hfirst, Int.add_assoc, apply_cons]
    congr 1
    simp only [Outcome.successful, List.filter_cons]
    split
    · rw [List.map_cons, operation_applyOne, Operation.gains]
    · exact Int.zero_add _

/-- At every moment of a run a counter stands at where it began plus what the operations that
succeeded so far gain. A step is taken exactly when 64 bits hold the next sum and the key is not
that of a core attribute. One that is refused is refused for this reason and leaves everything as it
is. -/
theorem counter_exact (hstart : w.counter? target key = some start)
    (hblank : Text.isBlank key = false)
    (hops : ∀ op ∈ ops, op.Counts target key ∨ op.Spares target key) :
    ∀ before after, ops = before ++ after →
      let found := ((attemptAll before).run w).2
      let done := Outcome.successful ((attemptAll before).run w).1
      let total := start.toInt + Operation.gains target key done
      (∃ n, found.counter? target key = some n ∧ n.toInt = total) ∧
        ∀ o amount rest, o ≠ Operator.equal →
          after = .modify target key o (.int amount) :: rest →
          ∃ outcome next,
            (attempt (.modify target key o (.int amount))).run found = (outcome, next) ∧
            ((attemptAll ops).run w).1[before.length]? = some outcome ∧
            (outcome.error = none ↔
              CoreAttribute.ofKey? key = none ∧ Fits (total + o.gain amount)) ∧
            ∀ error, outcome.error = some error →
              error = .refused target (refusal key o) ∧ next = found := by
  intro before after hsplit found done total
  have hfound : found = (w.apply before).1 := congrArg Prod.snd (run_attemptAll before w)
  have hdone : done = Outcome.successful (w.apply before).2 :=
    congrArg (fun r => Outcome.successful r.1) (run_attemptAll before w)
  have hbefore : ∀ op ∈ before, op.Counts target key ∨ op.Spares target key := fun op hop =>
    hops op (hsplit ▸ List.mem_append_left after hop)
  obtain ⟨n, hn, htotal⟩ := counter?_apply hstart hblank hbefore
  rw [← hfound] at hn
  rw [← hdone] at htotal
  refine ⟨⟨n, hn, htotal⟩, fun o amount rest ho hafter => ?_⟩
  refine ⟨_, _, run_attempt _ found, ?_, ?_⟩
  · rw [run_attemptAll, hsplit, hafter, hfound]
    exact getElem?_apply w before _ rest
  · rcases applyOne_int hn hblank ho amount with ⟨htaken, hsuccess, -⟩ | ⟨hnot, hfail⟩
    · rw [htotal] at htaken
      rw [hsuccess]
      refine ⟨iff_of_true rfl htaken, fun error herror => ?_⟩
      cases herror
    · rw [htotal] at hnot
      rw [hfail]
      refine ⟨iff_of_false (by simp) hnot, fun error herror => ?_⟩
      cases herror
      exact ⟨rfl, rfl⟩

/-- A world that was read counts under the key of a core attribute. A step there is refused although
64 bits hold the sum, and not for an overflow. -/
theorem counter_under_core_key :
    let cup : EntityId := ⟨.item, "cup"⟩
    let w := World.empty.store cup ⟨cup, [("EntityType", .int 1)], false⟩
    let op := Operation.modify cup "EntityType" .add (.int 1)
    (Json.parse? w.toJson.render).bind ofJson? = some w ∧ w.counter? cup "EntityType" = some 1 ∧
      Text.isBlank "EntityType" = false ∧ op.Counts cup "EntityType" ∧ Fits (1 + 1) ∧
      (attempt op).run w =
        (⟨op, some (.refused cup (.coreOperator "EntityType" .add))⟩, w) := by
  intro cup w op
  have hmaps : w.maps = [[("EntityType", .int 1)]] := rfl
  refine ⟨?_, rfl, by decide +kernel, ⟨.add, 1, by decide, rfl⟩, by decide, ?_⟩
  · refine (conveys_toJson ?_).read_text (by decide +kernel)
    rw [hmaps, List.forall_mem_singleton]
    refine ⟨?_, ?_, ?_⟩
    · simp [Value.WellFormed, Value.WellFormedEntries, Entries.Distinct, Entries.keys]
    · simp [Value.Faithful, Value.parts, Value.Misread]
    · simp [Value.FloatsReadBack, Value.parts]
  · rw [run_attempt]
    rfl

/-- A counter that begins one below the greatest number. A first step is taken, one beyond the
greatest number is refused, and one by the least number is taken again, while the hero is dressed,
refuses another type and sees the cup destroyed. -/
theorem counter_exact_extremes :
    let hero : EntityId := ⟨.character, "hero"⟩
    let cup : EntityId := ⟨.item, "cup"⟩
    let w := (World.empty.apply [.create hero [("hp", .int (Int64.maxValue - 1))],
      .create cup []]).1
    let first := Operation.modify hero "hp" .add (.int 1)
    let beyond := Operation.modify hero "hp" .subtract (.int Int64.minValue)
    let last := Operation.modify hero "hp" .add (.int Int64.minValue)
    let before : List Operation := [first, .modify hero "HP" .equal (.text "full"), beyond,
      .delete cup, .modify hero "EntityType" .add (.int 1)]
    let ops := before ++ [last]
    let found := ((attemptAll before).run w).2
    w.counter? hero "hp" = some (Int64.maxValue - 1) ∧
      (∀ op ∈ ops, op.Counts hero "hp" ∨ op.Spares hero "hp") ∧
      (∃ n, found.counter? hero "hp" = some n ∧ n.toInt = Int64.maxValue.toInt) ∧
      (∃ outcome, ((attemptAll ops).run w).1[2]? = some outcome ∧
        outcome.error = some (.refused hero (.overflow "hp"))) ∧
      ∃ outcome, ((attemptAll ops).run w).1[5]? = some outcome ∧ outcome.error = none := by
  intro hero cup w first beyond last before ops found
  have hstart : w.counter? hero "hp" = some (Int64.maxValue - 1) := by decide +kernel
  have hops : ∀ op ∈ ops, op.Counts hero "hp" ∨ op.Spares hero "hp" := by
    have hadd : Operator.add ≠ .equal := by decide
    have hsubtract : Operator.subtract ≠ .equal := by decide
    simp only [ops, before, List.cons_append, List.nil_append, List.forall_mem_cons]
    refine ⟨.inl ⟨_, _, hadd, rfl⟩, .inr (.inr ⟨_, _, _, rfl, by decide, by decide +kernel⟩),
      .inl ⟨_, _, hsubtract, rfl⟩, .inr (.inl (by decide)),
      .inr (.inr ⟨_, _, _, rfl, by decide, by decide +kernel⟩), .inl ⟨_, _, hadd, rfl⟩, ?_⟩
    rintro op hop
    cases hop
  have hexact := counter_exact hstart (by decide +kernel) hops
  obtain ⟨-, hbeyond⟩ := hexact [first, .modify hero "HP" .equal (.text "full")] _ rfl
  obtain ⟨hcount, hlast⟩ := hexact before [last] rfl
  have hearly : Operation.gains hero "hp" (Outcome.successful ((attemptAll [first,
      .modify hero "HP" .equal (.text "full")]).run w).1) = 1 := by
    rw [run_attemptAll]
    decide +kernel
  have hdone : Operation.gains hero "hp" (Outcome.successful ((attemptAll before).run w).1) = 1 := by
    rw [run_attemptAll]
    decide +kernel
  rw [hearly] at hbeyond
  rw [hdone] at hcount hlast
  obtain ⟨outcome, next, -, hat, htaken, hrefused⟩ := hbeyond _ _ _ (by decide) rfl
  obtain ⟨final, -, -, hatLast, htakenLast, -⟩ := hlast _ _ _ (by decide) rfl
  have hfits : CoreAttribute.ofKey? "hp" = none ∧
      Fits ((Int64.maxValue - 1).toInt + 1 + Operator.gain .add Int64.minValue) := by
    decide +kernel
  refine ⟨hstart, hops, hcount, ⟨outcome, hat, ?_⟩, final, hatLast, htakenLast.2 hfits⟩
  cases herror : outcome.error with
  | none => exact absurd (htaken.1 herror) (by decide +kernel)
  | some error =>
    rw [(hrefused error herror).1]
    decide +kernel

end World

end BranchingStory
