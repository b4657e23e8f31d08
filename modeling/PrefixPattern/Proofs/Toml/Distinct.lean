import Mathlib.Data.List.Nodup
import PrefixPattern.Toml.Document

/-!
# Documents in which every key occurs once

A key that is written twice makes a document invalid, whether it is written as a header, under a
dotted key or inside an inline table.  So in a document that can be read, every table, at whatever
depth, has each of its keys once.

The reader builds tables in only two ways, by adding a value under a dotted key and by adding a
section under a header, and both put an entry under a key in a table that is there already.  What is
said of a table under construction is therefore said of what it amounts to if it is left as it is.

## What is here

* `Value.Distinct` — every table in a value has every key once.
* `Fields.distinct_put`, `Fields.distinct_putLast` — one entry.
* `Fields.distinct_add?`, `Fields.distinct_addSection?` — a dotted key and a section.
* `distinct_value?`, `distinct_items?`, `distinct_pairs?` — the readers of values, which call each
  other.
* `distinct_of_parse?` — documents.
-/

set_option autoImplicit false

namespace PrefixPattern
namespace Toml

/-- Every table in the value has every key once. -/
inductive Value.Distinct : Value → Prop where
  | string (s : String) : Distinct (.string s)
  | integer (n : Int) : Distinct (.integer n)
  | float : Distinct .float
  | boolean (b : Bool) : Distinct (.boolean b)
  | dateTime : Distinct .dateTime
  | array {items : List Value} (h : ∀ v ∈ items, v.Distinct) : Distinct (.array items)
  | table {fields : Table} (hkeys : (fields.map Prod.fst).Nodup)
      (h : ∀ p ∈ fields, p.2.Distinct) : Distinct (.table fields)

theorem Value.distinct_array {items : List Value} :
    (Value.array items).Distinct ↔ ∀ v ∈ items, v.Distinct :=
  ⟨fun h => by cases h; assumption, .array⟩

theorem Value.distinct_table {fields : Table} :
    (Value.table fields).Distinct ↔ (fields.map Prod.fst).Nodup ∧ ∀ p ∈ fields, p.2.Distinct :=
  ⟨fun h => by cases h; exact ⟨‹_›, ‹_›⟩, fun h => .table h.1 h.2⟩

/-! ## Tables under construction -/

/-- Every table in the entry has every key once. -/
def Entry.Distinct (e : Entry) : Prop :=
  e.toValue.Distinct

namespace Fields

/-- The table and every table in it have every key once. -/
def Distinct (fields : Fields) : Prop :=
  (Value.table (toTable fields)).Distinct

variable {fields : Fields}

theorem toTable_eq_map (fields : Fields) :
    toTable fields = fields.map fun p => (p.1, p.2.toValue) := by
  induction fields with
  | nil => rfl
  | cons p rest ih => rw [toTable, ih, List.map_cons]

theorem distinct_iff :
    Distinct fields ↔ (fields.map Prod.fst).Nodup ∧ ∀ p ∈ fields, p.2.Distinct := by
  rw [Distinct, Value.distinct_table, toTable_eq_map, List.map_map, List.forall_mem_map]
  rfl

theorem distinct_nil : Distinct [] :=
  .table List.nodup_nil (List.forall_mem_nil _)

end Fields

theorem Entry.distinct_items {before : List Value} {last : Fields} :
    (Entry.items before last).Distinct ↔ (∀ v ∈ before, v.Distinct) ∧ last.Distinct := by
  rw [Entry.Distinct, Entry.toValue, Value.distinct_array, List.forall_mem_append,
    List.forall_mem_singleton]
  rfl

namespace Fields

variable {fields fields' : Fields} {key : String} {e : Entry}

theorem Distinct.of_lookup (h : fields.Distinct) (he : fields.lookup key = some e) :
    e.Distinct := by
  obtain ⟨before, behind, rfl, -⟩ := List.lookup_eq_some_iff.1 he
  exact (distinct_iff.1 h).2 (key, e) (List.mem_append_right _ List.mem_cons_self)

theorem mem_put {p : String × Entry} (h : p ∈ put key e fields) : p = (key, e) ∨ p ∈ fields := by
  induction fields with
  | nil => exact Or.inl (List.mem_singleton.1 h)
  | cons q rest ih =>
    rw [put] at h
    split at h
    · exact (List.mem_cons.1 h).imp_right (List.mem_cons_of_mem _)
    · rcases List.mem_cons.1 h with rfl | h
      · exact Or.inr List.mem_cons_self
      · exact (ih h).imp_right (List.mem_cons_of_mem _)

theorem distinct_cons {k : String} :
    Distinct ((k, e) :: fields) ↔ k ∉ fields.map Prod.fst ∧ e.Distinct ∧ fields.Distinct := by
  rw [distinct_iff, distinct_iff, List.map_cons, List.nodup_cons, List.forall_mem_cons]
  tauto

theorem distinct_put (h : fields.Distinct) (he : e.Distinct) : (put key e fields).Distinct := by
  induction fields with
  | nil => exact distinct_cons.2 ⟨List.not_mem_nil, he, distinct_nil⟩
  | cons q rest ih =>
    obtain ⟨k, old⟩ := q
    obtain ⟨hk, hold, hrest⟩ := distinct_cons.1 h
    rw [put]
    split
    · rename_i heq
      exact distinct_cons.2 ⟨heq ▸ hk, he, hrest⟩
    · rename_i hne
      refine distinct_cons.2 ⟨fun hmem => ?_, hold, ih hrest⟩
      obtain ⟨p, hp, rfl⟩ := List.mem_map.1 hmem
      rcases mem_put hp with rfl | hp
      · exact hne rfl
      · exact hk (List.mem_map_of_mem hp)

theorem distinct_putLast (h : fields.Distinct) (he : e.Distinct) :
    (putLast key e fields).Distinct := by
  obtain ⟨hkeys, hentries⟩ := distinct_iff.1 h
  refine distinct_iff.2 ⟨?_, ?_⟩
  · rw [putLast, List.map_append, List.nodup_append_comm]
    refine List.nodup_cons.2 ⟨?_, hkeys.sublist (List.filter_sublist.map _)⟩
    simp
  · rw [putLast, List.forall_mem_append, List.forall_mem_singleton]
    exact ⟨fun p hp => hentries p (List.mem_of_mem_filter hp), he⟩

/-! ## Dotted keys -/

/-- A value that is added under a dotted key. -/
theorem distinct_add? {isOpen : Bool} {path : List String} {v : Value} (hv : v.Distinct)
    (h : fields.Distinct) (hadd : add? isOpen path v fields = some fields') :
    fields'.Distinct := by
  fun_induction add? isOpen path v fields generalizing fields' with
  | case1 => cases hadd
  | case2 isOpen key v fields =>
    cases hadd
    exact distinct_put h hv
  | case3 => cases hadd
  | case4 isOpen key path v fields hpath hlookup ih =>
    obtain ⟨sub', hsub, rfl⟩ := Option.map_eq_some_iff.1 hadd
    exact distinct_put h (ih hv distinct_nil hsub)
  | case5 => cases hadd
  | case6 => cases hadd
  | case7 isOpen key path v fields hpath sub hlookup ih =>
    obtain ⟨sub', hsub, rfl⟩ := Option.map_eq_some_iff.1 hadd
    exact distinct_put h (ih hv (h.of_lookup hlookup) hsub)
  | case8 isOpen key path v fields hpath sub hlookup ih =>
    obtain ⟨sub', hsub, rfl⟩ := Option.map_eq_some_iff.1 hadd
    exact distinct_put h (ih hv (h.of_lookup hlookup) hsub)
  | case9 isOpen key path v fields hpath before last hlookup ih =>
    obtain ⟨last', hlast, rfl⟩ := Option.map_eq_some_iff.1 hadd
    obtain ⟨hbefore, hdistinct⟩ := Entry.distinct_items.1 (h.of_lookup hlookup)
    exact distinct_put h (Entry.distinct_items.2 ⟨hbefore, ih hv hdistinct hlast⟩)

theorem distinct_addAll? {pairs : List (List String × Value)} (hpairs : ∀ p ∈ pairs, p.2.Distinct)
    (h : fields.Distinct) (hadd : addAll? fields pairs = some fields') : fields'.Distinct := by
  induction pairs generalizing fields with
  | nil =>
    cases hadd
    exact h
  | cons p pairs ih =>
    obtain ⟨hp, hpairs⟩ := List.forall_mem_cons.1 hpairs
    rw [addAll?, List.foldlM_cons] at hadd
    obtain ⟨mid, hmid, hadd⟩ := Option.bind_eq_some_iff.1 hadd
    exact ih hpairs (distinct_add? hp h hmid) hadd

/-! ## Headers -/

/-- A change at the end of a path, where it may be made in any table. -/
theorem distinct_change? {f : String → Fields → Option Fields} {path : List String}
    (hf : ∀ key (fields fields' : Fields), fields.Distinct → f key fields = some fields' →
      fields'.Distinct)
    (h : fields.Distinct) (hchange : change? f path fields = some fields') : fields'.Distinct := by
  fun_induction change? f path fields generalizing fields' with
  | case1 => cases hchange
  | case2 => exact hf _ _ _ h hchange
  | case3 fields key path hpath hlookup ih =>
    obtain ⟨sub', hsub, rfl⟩ := Option.map_eq_some_iff.1 hchange
    exact distinct_put h (ih distinct_nil hsub)
  | case4 => cases hchange
  | case5 fields key path hpath kind sub hlookup ih =>
    obtain ⟨sub', hsub, rfl⟩ := Option.map_eq_some_iff.1 hchange
    exact distinct_put h (ih (h.of_lookup hlookup) hsub)
  | case6 fields key path hpath before last hlookup ih =>
    obtain ⟨last', hlast, rfl⟩ := Option.map_eq_some_iff.1 hchange
    obtain ⟨hbefore, hdistinct⟩ := Entry.distinct_items.1 (h.of_lookup hlookup)
    exact distinct_put h (Entry.distinct_items.2 ⟨hbefore, ih hdistinct hlast⟩)

end Fields

/-- Every table in the values of the section has every key once. -/
def Section.Distinct (s : Section) : Prop :=
  ∀ p ∈ s.pairs, p.2.Distinct

theorem Section.distinct_empty (header : Header) : Section.Distinct ⟨header, []⟩ :=
  List.forall_mem_nil _

theorem Section.Distinct.cons {s : Section} (hs : s.Distinct) {p : List String × Value}
    (hp : p.2.Distinct) : Section.Distinct { s with pairs := p :: s.pairs } :=
  List.forall_mem_cons.2 ⟨hp, hs⟩

theorem Section.Distinct.close {s : Section} (hs : s.Distinct) : s.close.Distinct :=
  fun p hp => hs p (List.mem_reverse.1 hp)

section Headers

variable {s : Section} {key : String} {fields fields' : Fields}

theorem Section.distinct_addTable? (hs : s.Distinct) (h : fields.Distinct)
    (hadd : s.addTable? key fields = some fields') : fields'.Distinct := by
  rw [Section.addTable?] at hadd
  split at hadd
  · obtain ⟨sub', hsub, rfl⟩ := Option.map_eq_some_iff.1 hadd
    exact Fields.distinct_putLast h (Fields.distinct_addAll? hs Fields.distinct_nil hsub)
  · rename_i sub hlookup
    obtain ⟨sub', hsub, rfl⟩ := Option.map_eq_some_iff.1 hadd
    exact Fields.distinct_putLast h (Fields.distinct_addAll? hs (h.of_lookup hlookup) hsub)
  · cases hadd

theorem Section.distinct_addItem? (hs : s.Distinct) (h : fields.Distinct)
    (hadd : s.addItem? key fields = some fields') : fields'.Distinct := by
  rw [Section.addItem?] at hadd
  split at hadd
  · obtain ⟨item, hitem, rfl⟩ := Option.map_eq_some_iff.1 hadd
    exact Fields.distinct_put h (Entry.distinct_items.2
      ⟨List.forall_mem_nil _, Fields.distinct_addAll? hs Fields.distinct_nil hitem⟩)
  · rename_i before last hlookup
    obtain ⟨item, hitem, rfl⟩ := Option.map_eq_some_iff.1 hadd
    obtain ⟨hbefore, hlast⟩ := Entry.distinct_items.1 (h.of_lookup hlookup)
    refine Fields.distinct_put h (Entry.distinct_items.2
      ⟨?_, Fields.distinct_addAll? hs Fields.distinct_nil hitem⟩)
    exact List.forall_mem_append.2 ⟨hbefore, List.forall_mem_singleton.2 hlast⟩
  · cases hadd

/-- A whole section. -/
theorem Fields.distinct_addSection? (hs : s.Distinct) (h : fields.Distinct)
    (hadd : fields.addSection? s = some fields') : fields'.Distinct := by
  rw [Fields.addSection?] at hadd
  split at hadd
  · exact distinct_addAll? hs h hadd
  · exact distinct_change? (fun _ _ _ => s.distinct_addTable? hs) h hadd
  · exact distinct_change? (fun _ _ _ => s.distinct_addItem? hs) h hadd

end Headers

theorem distinct_tableOf? {sections : List Section} {t : Table}
    (hsections : ∀ s ∈ sections, s.Distinct) (h : tableOf? sections = some t) :
    (Value.table t).Distinct := by
  obtain ⟨fields, hfold, rfl⟩ := Option.map_eq_some_iff.1 h
  have hkeep : ∀ start : Fields, start.Distinct →
      sections.foldlM Fields.addSection? start = some fields → Fields.Distinct fields := by
    clear h hfold
    induction sections with
    | nil =>
      intro start hstart hfold
      cases hfold
      exact hstart
    | cons s sections ih =>
      intro start hstart hfold
      obtain ⟨hs, hsections⟩ := List.forall_mem_cons.1 hsections
      obtain ⟨mid, hmid, hfold⟩ := Option.bind_eq_some_iff.1 hfold
      exact ih hsections mid (Fields.distinct_addSection? hs hstart hmid) hfold
  exact hkeep [] Fields.distinct_nil hfold

theorem distinct_inlineTable? {pairs : List (List String × Value)} {v : Value}
    (hpairs : ∀ p ∈ pairs, p.2.Distinct) (h : inlineTable? pairs = some v) : v.Distinct := by
  obtain ⟨fields, hfields, rfl⟩ := Option.map_eq_some_iff.1 h
  exact Fields.distinct_addAll? hpairs Fields.distinct_nil hfields

/-! ## Reading -/

theorem distinct_number? {cs rest : List Char} {v : Value} (h : number? cs = some (v, rest)) :
    v.Distinct := by
  rw [number?] at h
  split at h
  · cases h
    exact .dateTime
  · split at h
    · cases h
      exact .float
    · obtain ⟨⟨n, _⟩, -, hn⟩ := Option.map_eq_some_iff.1 h
      cases hn
      exact .integer n

theorem distinct_scalar? {cs rest : List Char} {v : Value} (h : scalar? cs = some (v, rest)) :
    v.Distinct := by
  rw [scalar?.eq_def] at h
  split at h
  · cases h
    exact .boolean true
  · cases h
    exact .boolean false
  · split at h
    · cases h
      exact .string _
    · exact distinct_number? h

mutual

/-- A value of any kind. -/
theorem distinct_value? {steps depth : Nat} {cs rest : List Char} {v : Value}
    (h : value? steps depth cs = some (v, rest)) : v.Distinct := by
  match steps with
  | 0 => cases h
  | steps + 1 =>
    rw [value?.eq_def] at h
    dsimp only at h
    split at h
    · exact distinct_items? (List.forall_mem_nil _) h
    · split at h
      · cases h
        exact .table List.nodup_nil (List.forall_mem_nil _)
      · exact distinct_pairs? (List.forall_mem_nil _) h
    · exact distinct_scalar? h

/-- An array. -/
theorem distinct_items? {steps depth : Nat} {cs rest : List Char} {done : List Value} {v : Value}
    (hdone : ∀ w ∈ done, w.Distinct) (h : items? steps depth cs done = some (v, rest)) :
    v.Distinct := by
  match steps with
  | 0 => cases h
  | steps + 1 =>
    have harray : ∀ {items : List Value}, (∀ w ∈ items, w.Distinct) →
        (Value.array items.reverse).Distinct := fun hitems =>
      .array fun w hw => hitems w (List.mem_reverse.1 hw)
    rw [items?.eq_def] at h
    dsimp only at h
    split at h
    · cases h
    · cases h
      exact harray hdone
    · split at h
      · cases h
      · rename_i v _ hv
        have hall : ∀ w ∈ v :: done, w.Distinct :=
          List.forall_mem_cons.2 ⟨distinct_value? hv, hdone⟩
        split at h
        · exact distinct_items? hall h
        · cases h
          exact harray hall
        · cases h

/-- An inline table. -/
theorem distinct_pairs? {steps depth : Nat} {cs rest : List Char}
    {done : List (List String × Value)} {v : Value} (hdone : ∀ p ∈ done, p.2.Distinct)
    (h : pairs? steps depth cs done = some (v, rest)) : v.Distinct := by
  match steps with
  | 0 => cases h
  | steps + 1 =>
    rw [pairs?.eq_def] at h
    dsimp only at h
    split at h
    · rename_i path _ _
      split at h
      · cases h
      · rename_i w _ hw
        have hall : ∀ p ∈ (path, w) :: done, p.2.Distinct :=
          List.forall_mem_cons.2 ⟨distinct_value? hw, hdone⟩
        split at h
        · exact distinct_pairs? hall h
        · obtain ⟨t, ht, htable⟩ := Option.map_eq_some_iff.1 h
          cases htable
          exact distinct_inlineTable? (fun p hp => hall p (List.mem_reverse.1 hp)) ht
        · cases h
    · cases h

end

theorem distinct_pair? {steps : Nat} {cs rest : List Char} {p : List String × Value}
    (h : pair? steps cs = some (p, rest)) : p.2.Distinct := by
  rw [pair?] at h
  split at h
  · split at h
    · cases h
    · rename_i hv
      obtain ⟨_, -, hp⟩ := Option.map_eq_some_iff.1 h
      cases hp
      exact distinct_value? hv
  · cases h

/-- The lines of a document, after those that were read already. -/
theorem distinct_sections? {steps : Nat} {cs : List Char} {current : Section}
    {done sections : List Section} (hcurrent : current.Distinct) (hdone : ∀ s ∈ done, s.Distinct)
    (h : sections? steps cs current done = some sections) : ∀ s ∈ sections, s.Distinct := by
  induction steps generalizing cs current done with
  | zero => cases h
  | succ steps ih =>
    have hclosed : ∀ s ∈ current.close :: done, s.Distinct :=
      List.forall_mem_cons.2 ⟨hcurrent.close, hdone⟩
    rw [sections?.eq_def] at h
    dsimp only at h
    split at h
    · cases h
      exact fun s hs => hclosed s (List.mem_reverse.1 hs)
    · split at h
      · exact ih (Section.distinct_empty _) hclosed h
      · cases h
    · split at h
      · exact ih (Section.distinct_empty _) hclosed h
      · cases h
    · split at h
      · split at h
        · exact ih hcurrent hdone h
        · cases h
      · split at h
        · rename_i hp
          exact ih (hcurrent.cons (distinct_pair? hp)) hdone h
        · cases h

/-- **In a document that can be read, every table has every key once.** -/
theorem distinct_of_parse? {text : String} {t : Table} (h : parse? text = some t) :
    (Value.table t).Distinct := by
  rw [parse?] at h
  obtain ⟨sections, hsections, ht⟩ := Option.bind_eq_some_iff.1 h
  exact distinct_tableOf?
    (distinct_sections? (Section.distinct_empty _) (List.forall_mem_nil _) hsections) ht

end Toml
end PrefixPattern
