import PrefixPattern.Proofs.NameMap
import PrefixPattern.Proofs.Program.Selection
import PrefixPattern.Proofs.Program.Warnings
import PrefixPattern.Proofs.Text.ByteOrder
import PrefixPattern.Proofs.Toml.Distinct

/-!
# Keys that are not known

A configuration may hold keys that are not known, at the top and in every set.  They are collected
while the known ones are read, and it is warned about them once all is well, but nothing else comes
of them: a document without them is read in the same way, down to the error if there is one.

## What is here

* `Toml.knownFields`, `Toml.unknownFields` — the two parts of a table.
* `Config.pruned` — a document without its unknown keys.
* `Config.unknowns` — its unknown keys, each as the warning about it, in the order of the document.
* `Config.decode_pruned` — a document without its unknown keys holds the same.
* `Warning.Before` — the order in which warnings come.
* `Config.perm_warnings`, `Config.pairwise_warnings` — the warnings are one for every unknown key,
  and they come in this order.
* `Config.read_pruned` — all of this for texts and what is told while they are read, and for the
  runs that read them.
-/

set_option autoImplicit false

namespace PrefixPattern

/-! ## Tables -/

namespace Toml

/-- The fields whose keys are in a list. -/
def knownFields (keys : List String) (t : Table) : Table :=
  t.filter fun p => keys.contains p.1

/-- The fields whose keys are not in a list. -/
def unknownFields (keys : List String) (t : Table) : Table :=
  t.filter fun p => !keys.contains p.1

variable {keys : List String} {key : String} {t : Table}

theorem lookup_knownFields (h : key ∈ keys) : (knownFields keys t).lookup key = t.lookup key := by
  induction t with
  | nil => rfl
  | cons p t ih =>
    obtain ⟨k, v⟩ := p
    rw [knownFields, List.filter_cons, List.lookup_cons]
    by_cases hk : key = k
    · subst hk
      simp [h]
    · have hbeq : (key == k) = false := by simpa using hk
      rw [hbeq]
      split
      · rw [List.lookup_cons, hbeq]
        exact ih
      · exact ih

theorem lookup_map (f : String → Value → Value) :
    (t.map fun p => (p.1, f p.1 p.2)).lookup key = (t.lookup key).map (f key) := by
  induction t with
  | nil => rfl
  | cons p t ih =>
    obtain ⟨k, v⟩ := p
    rw [List.map_cons, List.lookup_cons, List.lookup_cons, ih]
    by_cases hk : key = k
    · subst hk
      simp
    · have hbeq : (key == k) = false := by simpa using hk
      rw [hbeq]

theorem fieldsAreSound_iff : fieldsAreSound t = true ↔ ∀ p ∈ t, p.2.isSound = true := by
  induction t with
  | nil => simp [fieldsAreSound]
  | cons p t ih => rw [fieldsAreSound, Bool.and_eq_true, ih, List.forall_mem_cons]

/-- Unknown keys whose values are sound come in ascending order. -/
theorem unknownKeys?_eq (h : ∀ p ∈ unknownFields keys t, p.2.isSound = true) :
    unknownKeys? keys t = some (NameMap.ofList (unknownFields keys t)).names :=
  if_pos (fieldsAreSound_iff.2 h)

theorem unknownKeys?_eq_nil (h : ∀ p ∈ t, p.1 ∈ keys) : unknownKeys? keys t = some [] := by
  have hnil : unknownFields keys t = [] := by
    rw [unknownFields, List.filter_eq_nil_iff]
    intro p hp
    simpa using h p hp
  rw [unknownKeys?_eq (by simp [hnil]), hnil]
  rfl

/-- In a table where no key comes twice, every unknown key comes once. -/
theorem perm_names_unknownFields (keys : List String) (h : (t.map Prod.fst).Nodup) :
    (NameMap.ofList (unknownFields keys t)).names.Perm ((unknownFields keys t).map Prod.fst) :=
  (NameMap.perm_ofList (h.sublist (List.filter_sublist.map _))).map _

/-- In a table where no key comes twice, a field is what can be looked up. -/
theorem eq_of_lookup {p : String × Value} {v : Value} (h : (t.map Prod.fst).Nodup) (hp : p ∈ t)
    (hlookup : t.lookup p.1 = some v) : p.2 = v := by
  obtain ⟨before, behind, rfl, -⟩ := List.lookup_eq_some_iff.1 hlookup
  have hfield : (p.1, v) ∈ before ++ (p.1, v) :: behind :=
    List.mem_append_right _ List.mem_cons_self
  exact congrArg Prod.snd (List.inj_on_of_nodup_map h hp hfield rfl)

theorem mem_of_mem_knownFields {p : String × Value} (h : p ∈ knownFields keys t) : p.1 ∈ keys := by
  simpa using (List.mem_filter.1 h).2

end Toml

/-! ## Sets -/

namespace SetConfig

/-- The fields of a set whose keys are not known. -/
def unknownFields (v : Toml.Value) : Toml.Table :=
  Toml.unknownFields knownSetKeys ((table? v).getD [])

/-- The table of a set without the keys that are not known.  A date is a table with one key, which
no set knows. -/
def pruned (v : Toml.Value) : Toml.Value :=
  match table? v with
  | some t => .table (Toml.knownFields knownSetKeys t)
  | none => v

/-- A set without the unknown keys that were found with it. -/
def alone (s : SetConfig × List String) : SetConfig × List String :=
  (s.1, [])

theorem ofTable?_knownFields (t : Toml.Table) :
    ofTable? (Toml.knownFields knownSetKeys t) = ofTable? t := by
  have hmembers : "members" ∈ knownSetKeys := by decide
  have hwrap : "wrap" ∈ knownSetKeys := by decide
  have hempty : "allow_empty" ∈ knownSetKeys := by decide
  simp only [ofTable?, Toml.Value.field?, Toml.lookup_knownFields hmembers,
    Toml.lookup_knownFields hwrap, Toml.lookup_knownFields hempty]

/-- A set is read from its table, and the keys that are not known come with it. -/
theorem ofValue?_eq {v : Toml.Value} (h : ∀ p ∈ unknownFields v, p.2.isSound = true) :
    ofValue? v = (table? v).bind fun t =>
      (ofTable? t).map fun s => (s, (NameMap.ofList (unknownFields v)).names) := by
  cases ht : table? v with
  | none => simp [ofValue?, ht]
  | some t =>
    rw [unknownFields, ht, Option.getD_some] at h
    cases hs : ofTable? t <;> simp [ofValue?, unknownFields, ht, hs, Toml.unknownKeys?_eq h]

/-- **A set without its unknown keys is the same set.** -/
theorem ofValue?_pruned {v : Toml.Value} (h : ∀ p ∈ unknownFields v, p.2.isSound = true) :
    ofValue? (pruned v) = (ofValue? v).map alone := by
  rw [ofValue?_eq h]
  cases ht : table? v with
  | none => simp [ofValue?, pruned, ht]
  | some t =>
    have hknown : Toml.unknownKeys? knownSetKeys (Toml.knownFields knownSetKeys t) = some [] :=
      Toml.unknownKeys?_eq_nil fun _ => Toml.mem_of_mem_knownFields
    have htable : table? (pruned v) = some (Toml.knownFields knownSetKeys t) := by
      rw [pruned, ht]
      rfl
    cases hs : ofTable? t <;>
      simp [ofValue?, htable, ofTable?_knownFields, hs, hknown, alone]

/-- A set that was found under the name of a field, with the unknown keys of the field in ascending
order. -/
def ComesFrom (n : String × SetConfig × List String) (p : String × Toml.Value) : Prop :=
  n.1 = p.1 ∧ n.2.2 = (NameMap.ofList (unknownFields p.2)).names

theorem perm_names_unknownFields {v : Toml.Value} (h : v.Distinct) :
    (NameMap.ofList (unknownFields v)).names.Perm ((unknownFields v).map Prod.fst) := by
  refine Toml.perm_names_unknownFields knownSetKeys ?_
  cases h with
  | table hkeys _ => exact hkeys
  | dateTime => exact List.nodup_singleton _
  | _ => exact List.nodup_nil

end SetConfig

section Sets

variable {sets : Toml.Table} {named : List (String × SetConfig × List String)}

theorem setsOfTable?_pruned
    (h : ∀ p ∈ sets, ∀ q ∈ SetConfig.unknownFields p.2, q.2.isSound = true) :
    setsOfTable? (sets.map fun p => (p.1, SetConfig.pruned p.2)) =
      (setsOfTable? sets).map (List.map fun n => (n.1, SetConfig.alone n.2)) := by
  induction sets with
  | nil => rfl
  | cons p rest ih =>
    obtain ⟨name, v⟩ := p
    obtain ⟨hv, hrest⟩ := List.forall_mem_cons.1 h
    -- the first set that is malformed ends the reading on both sides
    simp only [List.map_cons, setsOfTable?, SetConfig.ofValue?_pruned hv, ih hrest]
    cases SetConfig.ofValue? v <;> cases setsOfTable? rest <;> rfl

/-- Every set comes from a field of the table. -/
theorem forall₂_setsOfTable?
    (h : ∀ p ∈ sets, ∀ q ∈ SetConfig.unknownFields p.2, q.2.isSound = true)
    (hsets : setsOfTable? sets = some named) :
    List.Forall₂ SetConfig.ComesFrom named sets := by
  induction sets generalizing named with
  | nil =>
    cases hsets
    exact .nil
  | cons p rest ih =>
    obtain ⟨name, v⟩ := p
    obtain ⟨hv, hrest⟩ := List.forall_mem_cons.1 h
    rw [setsOfTable?, SetConfig.ofValue?_eq hv] at hsets
    obtain ⟨s, hs, hsets⟩ := Option.bind_eq_some_iff.1 hsets
    obtain ⟨others, hothers, hsets⟩ := Option.bind_eq_some_iff.1 hsets
    obtain ⟨t, -, hs⟩ := Option.bind_eq_some_iff.1 hs
    obtain ⟨set, -, rfl⟩ := Option.map_eq_some_iff.1 hs
    cases hsets
    exact .cons ⟨rfl, rfl⟩ (ih hrest hothers)

/-- A set that comes from a field has its unknown keys in ascending order. -/
theorem pairwise_of_comesFrom (h : List.Forall₂ SetConfig.ComesFrom named sets) :
    ∀ n ∈ named, n.2.2.Pairwise (· < ·) := by
  induction h with
  | nil => exact List.forall_mem_nil _
  | cons hn _ ih =>
    refine List.forall_mem_cons.2 ⟨?_, ih⟩
    rw [hn.2]
    exact NameMap.ascending_ofList _

theorem map_fst_of_comesFrom (h : List.Forall₂ SetConfig.ComesFrom named sets) :
    named.map Prod.fst = sets.map Prod.fst := by
  induction h with
  | nil => rfl
  | cons hn _ ih => rw [List.map_cons, List.map_cons, hn.1, ih]

/-- Sets that come from different fields are all kept. -/
theorem perm_ofList_of_comesFrom (hdistinct : (Toml.Value.table sets).Distinct)
    (h : List.Forall₂ SetConfig.ComesFrom named sets) : (NameMap.ofList named).Perm named := by
  refine NameMap.perm_ofList ?_
  rw [map_fst_of_comesFrom h]
  exact (Toml.Value.distinct_table.1 hdistinct).1

end Sets

/-! ## The order of warnings -/

/-- The order of warnings: those about keys at the top come first, by the bytes of the keys, and then
those about the keys of sets, by the bytes of the names of the sets and then of the keys. -/
inductive Warning.Before : Warning → Warning → Prop where
  | keys {key key' : String} (h : bytes key < bytes key') :
    Before (.unknownKey key) (.unknownKey key')
  | top (key set key' : String) : Before (.unknownKey key) (.unknownSetKey set key')
  | sets {set set' : String} (h : bytes set < bytes set') (key key' : String) :
    Before (.unknownSetKey set key) (.unknownSetKey set' key')
  | setKeys (set : String) {key key' : String} (h : bytes key < bytes key') :
    Before (.unknownSetKey set key) (.unknownSetKey set key')

theorem Warning.pairwise_unknownKey {keys : List String} (h : keys.Pairwise (· < ·)) :
    (keys.map Warning.unknownKey).Pairwise Warning.Before :=
  List.pairwise_map.2 (h.imp fun hlt => .keys (lt_iff_bytes_lt.1 hlt))

/-- Sets in the order of their names, each with its keys in order, warn in order. -/
theorem pairwise_setWarnings {m : NameMap (SetConfig × List String)} (hm : m.Ascending)
    (hkeys : ∀ n ∈ m, n.2.2.Pairwise (· < ·)) :
    (Config.setWarnings m).Pairwise Warning.Before := by
  rw [Config.setWarnings, List.pairwise_flatMap]
  refine ⟨fun n hn => ?_, (List.pairwise_map.1 hm).imp fun hlt w hw w' hw' => ?_⟩
  · exact List.pairwise_map.2 ((hkeys n hn).imp fun hlt => .setKeys _ (lt_iff_bytes_lt.1 hlt))
  · obtain ⟨key, -, rfl⟩ := List.mem_map.1 hw
    obtain ⟨key', -, rfl⟩ := List.mem_map.1 hw'
    exact .sets (lt_iff_bytes_lt.1 hlt) key key'

/-! ## Documents -/

namespace Config

/-- The tables of the sets. -/
def setTables (t : Toml.Table) : Toml.Table :=
  match t.lookup "sets" with
  | some (.table sets) => sets
  | _ => []

/-- The unknown keys of a document, as the warnings about them and with their values: those at the
top and then those of every set, in the order of the document. -/
def unknowns (t : Toml.Table) : List (Warning × Toml.Value) :=
  (Toml.unknownFields knownKeys t).map (fun p => (.unknownKey p.1, p.2)) ++
    (setTables t).flatMap fun p =>
      (SetConfig.unknownFields p.2).map fun q => (.unknownSetKey p.1 q.1, q.2)

/-- The value of `sets` without the unknown keys of the sets. -/
def prunedSets : Toml.Value → Toml.Value
  | .table sets => .table (sets.map fun p => (p.1, SetConfig.pruned p.2))
  | v => v

/-- A document without its unknown keys. -/
def pruned (t : Toml.Table) : Toml.Table :=
  (Toml.knownFields knownKeys t).map fun p =>
    (p.1, if p.1 = "sets" then prunedSets p.2 else p.2)

variable {t : Toml.Table}

theorem isSound_of_mem_unknowns (h : ∀ u ∈ unknowns t, u.2.isSound = true) :
    (∀ p ∈ Toml.unknownFields knownKeys t, p.2.isSound = true) ∧
      ∀ p ∈ setTables t, ∀ q ∈ SetConfig.unknownFields p.2, q.2.isSound = true := by
  simpa only [unknowns, List.forall_mem_append, List.forall_mem_map, List.forall_mem_flatMap]
    using h

theorem lookup_pruned {key : String} (h : key ∈ knownKeys) :
    (pruned t).lookup key =
      (t.lookup key).map fun v => if key = "sets" then prunedSets v else v := by
  rw [← Toml.lookup_knownFields (t := t) h]
  exact Toml.lookup_map fun k v => if k = "sets" then prunedSets v else v

theorem versionOf_pruned : versionOf (pruned t) = versionOf t := by
  have hversion : (pruned t).lookup "version" = t.lookup "version" := by
    rw [lookup_pruned (by decide)]
    exact Option.map_id'
  rw [versionOf, versionOf, hversion]

theorem setsField?_pruned
    (h : ∀ p ∈ setTables t, ∀ q ∈ SetConfig.unknownFields p.2, q.2.isSound = true) :
    Toml.Value.field? setsOfValue? [] "sets" (pruned t) =
      (Toml.Value.field? setsOfValue? [] "sets" t).map
        (List.map fun n => (n.1, SetConfig.alone n.2)) := by
  have hsets : (pruned t).lookup "sets" = (t.lookup "sets").map prunedSets :=
    lookup_pruned (by decide)
  rw [Toml.Value.field?, Toml.Value.field?, hsets]
  rw [setTables] at h
  cases hlookup : t.lookup "sets" with
  | none => rfl
  | some v =>
    rw [hlookup] at h
    cases v with
    | table sets => exact setsOfTable?_pruned h
    | _ => rfl

/-- The value of the version is an integer if it is the supported one, so it is sound like those of
unknown keys. -/
theorem isSound_of_versionOf {version : Int} (hkeys : (t.map Prod.fst).Nodup)
    (hversion : versionOf t = .ok version)
    (htop : ∀ p ∈ Toml.unknownFields knownKeys t, p.2.isSound = true) :
    ∀ p ∈ Toml.unknownFields ["sets"] t, p.2.isSound = true := by
  intro p hp
  obtain ⟨hmem, hsets⟩ := List.mem_filter.1 hp
  by_cases hkey : p.1 = "version"
  · rw [versionOf, ← hkey] at hversion
    split at hversion
    · cases hversion
    · rename_i v hlookup
      rw [Toml.eq_of_lookup hkeys hmem hlookup]
      rfl
    · cases hversion
  · exact htop p (List.mem_filter.2 ⟨hmem, by simpa [knownKeys, hkey] using hsets⟩)

/-- The sets of a document, with all keys besides them. -/
theorem contentOf_eq (h : ∀ p ∈ Toml.unknownFields ["sets"] t, p.2.isSound = true) :
    contentOf t =
      match Toml.Value.field? setsOfValue? [] "sets" t with
      | some named => .ok (NameMap.ofList named,
          (NameMap.ofList (Toml.unknownFields ["sets"] t)).names)
      | none => .error .malformed := by
  rw [contentOf, Toml.unknownKeys?_eq h]
  cases Toml.Value.field? setsOfValue? [] "sets" t <;> rfl

theorem mem_knownKeys_of_mem_pruned {p : String × Toml.Value} (h : p ∈ pruned t) :
    p.1 ∈ knownKeys := by
  obtain ⟨q, hq, rfl⟩ := List.mem_map.1 h
  have hknown : q.1 ∈ knownKeys := Toml.mem_of_mem_knownFields hq
  exact hknown

theorem nodup_keys_pruned (h : (t.map Prod.fst).Nodup) : ((pruned t).map Prod.fst).Nodup := by
  rw [pruned, List.map_map]
  exact h.sublist (List.filter_sublist.map _)

/-- Keys that are all known are not warned about. -/
theorem topWarnings_eq_nil {keys : List String} (h : ∀ key ∈ keys, key ∈ knownKeys) :
    topWarnings keys = [] := by
  have hnone : keys.filter (fun key => !knownKeys.contains key) = [] :=
    List.filter_eq_nil_iff.2 fun key hkey => by simpa using h key hkey
  rw [topWarnings, hnone, List.map_nil]

/-- Sets without unknown keys have no warnings. -/
theorem setWarnings_alone (sets : NameMap (SetConfig × List String)) :
    setWarnings (sets.map fun n => (n.1, SetConfig.alone n.2)) = [] := by
  rw [setWarnings, List.flatMap_eq_nil_iff, List.forall_mem_map]
  exact fun _ _ => rfl

/-- **A document without its unknown keys holds the same.**  It has the same configuration or the
same fault, and no warnings. -/
theorem decode_pruned (hkeys : (t.map Prod.fst).Nodup)
    (h : ∀ u ∈ unknowns t, u.2.isSound = true) :
    decode (pruned t) = (decode t).map fun c => (c.1, []) := by
  obtain ⟨htop, hsets⟩ := isSound_of_mem_unknowns h
  rw [decode, decode, versionOf_pruned]
  cases hversion : versionOf t with
  | error fault => rfl
  | ok version =>
    have hpruned : ∀ p ∈ Toml.unknownFields ["sets"] (pruned t), p.2.isSound = true := by
      refine isSound_of_versionOf (nodup_keys_pruned hkeys) (versionOf_pruned.trans hversion)
        fun p hp => ?_
      obtain ⟨hmem, hunknown⟩ := List.mem_filter.1 hp
      exact absurd (mem_knownKeys_of_mem_pruned hmem) (by simpa using hunknown)
    have hknown : topWarnings (NameMap.ofList (Toml.unknownFields ["sets"] (pruned t))).names =
        [] := by
      refine topWarnings_eq_nil fun key hkey => ?_
      obtain ⟨p, hp, rfl⟩ := List.mem_map.1 ((Toml.perm_names_unknownFields ["sets"]
        (nodup_keys_pruned hkeys)).mem_iff.1 hkey)
      exact mem_knownKeys_of_mem_pruned (List.mem_filter.1 hp).1
    rw [contentOf_eq hpruned, contentOf_eq (isSound_of_versionOf hkeys hversion htop),
      setsField?_pruned hsets]
    cases Toml.Value.field? setsOfValue? [] "sets" t with
    | none => rfl
    | some named =>
      simp only [Option.map_some, NameMap.ofList_map, hknown, setWarnings_alone, List.map_map]
      rfl

/-! ## Warnings -/

theorem distinct_setTables (h : (Toml.Value.table t).Distinct) :
    (Toml.Value.table (setTables t)).Distinct := by
  rw [setTables]
  split
  · rename_i sets hlookup
    obtain ⟨before, behind, rfl, -⟩ := List.lookup_eq_some_iff.1 hlookup
    exact (Toml.Value.distinct_table.1 h).2 ("sets", .table sets)
      (List.mem_append_right _ List.mem_cons_self)
  · exact .table List.nodup_nil (List.forall_mem_nil _)

/-- The sets of a table warn once about each of their unknown keys. -/
theorem perm_setWarnings {sets : Toml.Table} {named : List (String × SetConfig × List String)}
    (hdistinct : (Toml.Value.table sets).Distinct)
    (h : List.Forall₂ SetConfig.ComesFrom named sets) :
    (setWarnings named).Perm (sets.flatMap fun p =>
      (SetConfig.unknownFields p.2).map fun q => .unknownSetKey p.1 q.1) := by
  -- of the fields only their values matter here, so the induction is on the sets alone
  have hsets := (Toml.Value.distinct_table.1 hdistinct).2
  clear hdistinct
  induction h with
  | nil => exact List.Perm.refl _
  | @cons n p named sets hn _ ih =>
    obtain ⟨hp, hsets⟩ := List.forall_mem_cons.1 hsets
    obtain ⟨name, set, unknown⟩ := n
    obtain ⟨rfl, rfl⟩ := hn
    rw [setWarnings, List.flatMap_cons, List.flatMap_cons]
    refine List.Perm.append ?_ (ih hsets)
    have hkeys := (SetConfig.perm_names_unknownFields hp).map (Warning.unknownSetKey p.1)
    rwa [List.map_map] at hkeys

theorem setsOfTable?_setTables {named : List (String × SetConfig × List String)}
    (h : Toml.Value.field? setsOfValue? [] "sets" t = some named) :
    setsOfTable? (setTables t) = some named := by
  rw [Toml.Value.field?] at h
  rw [setTables]
  cases hlookup : t.lookup "sets" with
  | none => rwa [hlookup] at h
  | some v =>
    rw [hlookup] at h
    cases v with
    | table sets => exact h
    | _ => cases h

/-- In a document where no key comes twice, every unknown key at the top is warned about once. -/
theorem perm_topWarnings (hkeys : (t.map Prod.fst).Nodup) :
    (topWarnings (NameMap.ofList (Toml.unknownFields ["sets"] t)).names).Perm
      ((Toml.unknownFields knownKeys t).map fun p => .unknownKey p.1) := by
  have hnames := (Toml.perm_names_unknownFields ["sets"] hkeys).filter
    fun key => !knownKeys.contains key
  have hfields : ((Toml.unknownFields ["sets"] t).map Prod.fst).filter
      (fun key => !knownKeys.contains key) = (Toml.unknownFields knownKeys t).map Prod.fst := by
    rw [List.filter_map, Toml.unknownFields, Toml.unknownFields, List.filter_filter]
    refine congrArg _ (List.filter_congr fun p _ => ?_)
    by_cases hsets : p.1 = "sets" <;> simp [knownKeys, hsets]
  rw [hfields] at hnames
  have hwarnings := hnames.map Warning.unknownKey
  rwa [List.map_map] at hwarnings

/-- What a document holds, with its warnings as they come from the sets. -/
theorem exists_of_decode {config : Config} {warnings : List Warning}
    (hkeys : (t.map Prod.fst).Nodup) (h : ∀ u ∈ unknowns t, u.2.isSound = true)
    (hread : decode t = .ok (config, warnings)) :
    ∃ named, setsOfTable? (setTables t) = some named ∧
      warnings = topWarnings (NameMap.ofList (Toml.unknownFields ["sets"] t)).names ++
        setWarnings (NameMap.ofList named) := by
  rw [decode] at hread
  split at hread
  · cases hread
  · rename_i version hversion
    rw [contentOf_eq (isSound_of_versionOf hkeys hversion (isSound_of_mem_unknowns h).1)] at hread
    cases hnamed : Toml.Value.field? setsOfValue? [] "sets" t with
    | none =>
      rw [hnamed] at hread
      cases hread
    | some named =>
      rw [hnamed] at hread
      obtain ⟨-, rfl⟩ := Prod.mk.inj (Except.ok.inj hread)
      exact ⟨named, setsOfTable?_setTables hnamed, rfl⟩

/-- **A document warns once about every unknown key.** -/
theorem perm_warnings {config : Config} {warnings : List Warning}
    (hdistinct : (Toml.Value.table t).Distinct) (h : ∀ u ∈ unknowns t, u.2.isSound = true)
    (hread : decode t = .ok (config, warnings)) :
    warnings.Perm ((unknowns t).map Prod.fst) := by
  have hkeys := (Toml.Value.distinct_table.1 hdistinct).1
  obtain ⟨named, hnamed, rfl⟩ := exists_of_decode hkeys h hread
  have hsets := forall₂_setsOfTable? (isSound_of_mem_unknowns h).2 hnamed
  have htables := distinct_setTables hdistinct
  have hmap := perm_ofList_of_comesFrom htables hsets
  rw [unknowns, List.map_append, List.map_map, List.map_flatMap]
  simp only [List.map_map]
  exact (perm_topWarnings hkeys).append
    ((hmap.flatMap_right _).trans (perm_setWarnings htables hsets))

/-- **The warnings come in order.** -/
theorem pairwise_warnings {config : Config} {warnings : List Warning}
    (hdistinct : (Toml.Value.table t).Distinct) (h : ∀ u ∈ unknowns t, u.2.isSound = true)
    (hread : decode t = .ok (config, warnings)) : warnings.Pairwise Warning.Before := by
  obtain ⟨named, hnamed, rfl⟩ :=
    exists_of_decode (Toml.Value.distinct_table.1 hdistinct).1 h hread
  have hsets := forall₂_setsOfTable? (isSound_of_mem_unknowns h).2 hnamed
  have hmap := perm_ofList_of_comesFrom (distinct_setTables hdistinct) hsets
  have htop := List.Pairwise.filter (fun key => !knownKeys.contains key)
    (NameMap.ascending_ofList (Toml.unknownFields ["sets"] t))
  refine List.pairwise_append.2 ⟨Warning.pairwise_unknownKey htop,
    pairwise_setWarnings (NameMap.ascending_ofList _) fun n hn => ?_, fun w hw w' hw' => ?_⟩
  · exact pairwise_of_comesFrom hsets n (hmap.mem_iff.1 hn)
  · obtain ⟨key, -, rfl⟩ := List.mem_map.1 hw
    obtain ⟨n, -, hn⟩ := List.mem_flatMap.1 hw'
    obtain ⟨key', -, rfl⟩ := List.mem_map.1 hn
    exact .top key n.1 key'

/-! ## Texts -/

theorem read_eq {content : String} (h : Toml.parse? content = some t) (path : String) :
    read content path =
      match decode t with
      | .error fault => .fail (.config fault (some path))
      | .ok (config, warnings) => ⟨warnings.flatMap (Warning.effects path), .ok config⟩ := by
  rw [read, h]
  exact ofTable_eq path t

/-- What a document that can be read warns about. -/
theorem exists_of_read {content path : String} {config : Config}
    (h : Toml.parse? content = some t) (hread : (read content path).result = .ok config) :
    ∃ warnings, decode t = .ok (config, warnings) ∧
      (read content path).trace = warnings.flatMap (Warning.effects path) := by
  rw [read_eq h] at hread ⊢
  cases hdecode : decode t with
  | error fault =>
    rw [hdecode] at hread
    cases hread
  | ok c =>
    rw [hdecode] at hread
    obtain rfl := Except.ok.inj hread
    exact ⟨c.2, rfl, rfl⟩

/-- A document that cannot be read is read in silence. -/
theorem read_eq_fail {content path : String} {e : Error}
    (h : Toml.parse? content = some t) (hread : (read content path).result = .error e) :
    read content path = .fail e := by
  rw [read_eq h] at hread ⊢
  cases hdecode : decode t with
  | error fault =>
    rw [hdecode] at hread
    exact congrArg Action.fail (Except.error.inj hread)
  | ok c =>
    rw [hdecode] at hread
    cases hread

/-- **Unknown keys are warned about and make no other difference.**  Without them, and if their
values are sound, a document yields the same configuration or the same error, and nothing is told on
the way.  With them, a document that can be read warns exactly once about each, first about those at
the top and then set by set, in the order of the bytes of the keys and of the names of the sets.
These warnings, each logged and then told, are all that reading does, and what they say is all that
a run writes on the standard error besides its failure, where the log is not shown.  If the document
cannot be read, for whatever reason, nothing is told but this. -/
theorem read_pruned {content : String} (path : String) (h : Toml.parse? content = some t)
    (hsound : ∀ u ∈ unknowns t, u.2.isSound = true) :
    ofTable path (pruned t) = ⟨[], (read content path).result⟩ ∧
      (∀ content', Toml.parse? content' = some (pruned t) →
        read content' path = ⟨[], (read content path).result⟩ ∧
          ∀ s : Surroundings, s.Reads path content' → (run s).warnings = []) ∧
      (∀ config, (read content path).result = .ok config → ∃ warnings texts,
        warnings.Perm ((unknowns t).map Prod.fst) ∧ warnings.Pairwise Warning.Before ∧
          List.Forall₂ (Warning.Says path) warnings texts ∧
          (read content path).trace =
            warnings.flatMap (fun w => [.tell (.event w.event), .tell (.warning path w)]) ∧
          String.join ((read content path).trace.map (Effect.onError [])) = String.join texts ∧
          ∀ s : Surroundings, s.Reads path content →
            (run s).warnings = warnings.map (fun w => (path, w)) ∧
              ∃ failure : Option Error, (run s).exit = failure.elim .success Error.exitCode ∧
                (run s).told [] = String.join texts ++
                  failure.elim "" fun e => "routeset: " ++ e.message ++ "\n") ∧
      ∀ e, (read content path).result = .error e →
        (read content path).trace = [] ∧
          ∀ s : Surroundings, s.Reads path content →
            (run s).exit = e.exitCode ∧ (run s).warnings = [] ∧
              (run s).told [] = "routeset: " ++ e.message ++ "\n" := by
  have hdistinct := Toml.distinct_of_parse? h
  have hpruned : ofTable path (pruned t) = ⟨[], (read content path).result⟩ := by
    rw [ofTable_eq, decode_pruned (Toml.Value.distinct_table.1 hdistinct).1 hsound, read_eq h]
    cases decode t <;> rfl
  refine ⟨hpruned, fun content' h' => ?_, fun config hread => ?_, fun e hread => ?_⟩
  · have hquiet : read content' path = ⟨[], (read content path).result⟩ := by
      rw [read, h']
      exact hpruned
    refine ⟨hquiet, fun s hs => ?_⟩
    obtain ⟨failure, -, hwarnings, -⟩ := hs.exists_told
    rw [hwarnings, hquiet]
    rfl
  · obtain ⟨warnings, hdecode, htrace⟩ := exists_of_read h hread
    obtain ⟨texts, htexts, hjoin⟩ := Warning.exists_texts path warnings
    refine ⟨warnings, texts, perm_warnings hdistinct hsound hdecode,
      pairwise_warnings hdistinct hsound hdecode, htexts, htrace, by rw [htrace]; exact hjoin,
      fun s hs => ?_⟩
    obtain ⟨failure, hexit, hwarnings, htold, -⟩ := hs.exists_told
    rw [htrace] at htold
    refine ⟨?_, failure, hexit, htold.trans (congrArg (· ++ _) hjoin)⟩
    rw [hwarnings, Action.warnings, htrace]
    exact Warning.filterMap_effects path warnings
  · have hsilent : read content path = .fail e := read_eq_fail h hread
    refine ⟨by rw [hsilent]; rfl, fun s hs => ?_⟩
    obtain ⟨failure, hexit, hwarnings, htold, herror⟩ := hs.exists_told
    obtain rfl := herror e hread
    rw [hsilent] at hwarnings htold
    exact ⟨hexit, hwarnings, htold⟩

/-- The configuration is the text that a run in its directory reads. -/
theorem reads_beside {words : List String} (args : BuildArgs) (text : String) (others : Files)
    (hparse : CommandLine.parse words none = .ok ⟨none, some (.build args)⟩) :
    (Surroundings.beside words text others).Reads "/routeset.toml" text :=
  ⟨none, args, hparse, Surroundings.resolveConfig_beside,
    Files.readText_eq Surroundings.files_beside⟩

/-- Unknown keys of all kinds, in another order than the warnings about them, which are all told
although the first set turns out to be empty. -/
theorem read_pruned_mixed :
    let content := "\"é\" = 1979-05-27\nversion = 1\nz.a = [1.5]\n" ++
      "[sets.b]\nmember = [\"y\"]\nmembers = [\"x\"]\nZ = {}\n[sets.a]\ngroup.wrap = 1\n"
    let content' := "version = 1\n[sets.b]\nmembers = [\"x\"]\n[sets.a]\n"
    let t : Toml.Table := [("é", .dateTime), ("version", .integer 1),
      ("z", .table [("a", .array [.float])]),
      ("sets", .table [
        ("b", .table [("member", .array [.string "y"]), ("members", .array [.string "x"]),
          ("Z", .table [])]),
        ("a", .table [("group", .table [("wrap", .integer 1)])])])]
    let config : Config := ⟨1, [("a", ⟨[], false, false⟩), ("b", ⟨["x"], false, false⟩)]⟩
    let warnings : List Warning := [.unknownKey "z", .unknownKey "é",
      .unknownSetKey "a" "group", .unknownSetKey "b" "Z", .unknownSetKey "b" "member"]
    let s := Surroundings.beside ["build"] content fun _ => .error .notFound
    Toml.parse? content = some t ∧ Toml.parse? content' = some (pruned t) ∧
      (∀ u ∈ unknowns t, u.2.isSound = true) ∧
      (read content "/routeset.toml").result = .ok config ∧
      read content' "/routeset.toml" = ⟨[], .ok config⟩ ∧
      warnings.Perm ((unknowns t).map Prod.fst) ∧ warnings.Pairwise Warning.Before ∧
      s.Reads "/routeset.toml" content ∧
      (run s).warnings = warnings.map (fun w => ("/routeset.toml", w)) ∧
      ∃ (texts : List String) (e : Error),
        List.Forall₂ (Warning.Says "/routeset.toml") warnings texts ∧
        (run s).exit = e.exitCode ∧
        (run s).told [] = String.join texts ++ ("routeset: " ++ e.message ++ "\n") := by
  intro content content' t config warnings s
  have h : Toml.parse? content = some t := by
    dsimp only [content, t]
    cbv
  have h' : Toml.parse? content' = some (pruned t) := by
    dsimp only [content', t]
    cbv
  have hsound : ∀ u ∈ unknowns t, u.2.isSound = true := by
    decide +kernel
  have hdecode : decode t = .ok (config, warnings) := by
    dsimp only [t, config, warnings]
    cbv
  have hread : (read content "/routeset.toml").result = .ok config := by
    rw [read_eq h, hdecode]
  have hs : s.Reads "/routeset.toml" content :=
    reads_beside ⟨[], false, .text⟩ content _ (by decide +kernel)
  have hbuilds : s.Builds ⟨[], false, .text⟩ config := by
    refine Surroundings.builds_beside (by decide +kernel) ?_
    rw [parse, Action.withWarnings, hread]
    rfl
  have hfails : (run s).exit ≠ .success := by
    intro hsuccess
    have hpasses := (hbuilds.exit_eq_success_iff (List.forall_mem_nil _)).1 hsuccess
    obtain ⟨p, hp, -⟩ := hpasses "a" ⟨[], false, false⟩ (Or.inl rfl) rfl
    cases hp
  obtain ⟨-, hpruned, hwarnings, -⟩ := read_pruned "/routeset.toml" h hsound
  obtain ⟨others, texts, hperm, hordered, htexts, htrace, -, hrun⟩ := hwarnings config hread
  obtain ⟨hshown, failure, hexit, htold⟩ := hrun s hs
  obtain rfl : others = warnings := by
    have hsame : others.flatMap (Warning.effects "/routeset.toml") =
        warnings.flatMap (Warning.effects "/routeset.toml") := by
      refine Eq.trans htrace.symm ?_
      rw [read_eq h, hdecode]
    have hpairs := congrArg (List.filterMap Effect.warning?) hsame
    rw [Warning.filterMap_effects, Warning.filterMap_effects] at hpairs
    exact List.map_injective_iff.2 (fun _ _ hpair => (Prod.mk.inj hpair).2) hpairs
  have hquiet := (hpruned content' h').1
  rw [hread] at hquiet
  cases failure with
  | none => exact absurd hexit hfails
  | some e =>
    exact ⟨h, h', hsound, hread, hquiet, hperm, hordered, hs, hshown, texts, e, htexts, hexit,
      htold⟩

end Config

end PrefixPattern
