import PrefixPattern.Config.Basic
import PrefixPattern.Proofs.Action
import PrefixPattern.Proofs.NameMap

/-!
# What reading a configuration does

A configuration is taken over set by set, and on the way it is warned about keys that are not known.
All that can be wrong is found out before.  So what a document holds can be said first, together
with its warnings, and then reading it is telling them all.

## What is here

* `Config.decode` — the configuration that a document holds, with all warnings in their order.
* `Config.ofTable_eq` — reading the document tells these warnings and yields this configuration, or
  it does nothing and fails.
* `Config.ascending_sets_of_read` — the sets of a configuration that was read are in the order of
  their names.
-/

set_option autoImplicit false

namespace PrefixPattern

namespace Config

/-! ## Warnings in their order -/

/-- The warnings about keys at the top. -/
def topWarnings (keys : List String) : List Warning :=
  (keys.filter fun key => !knownKeys.contains key).map .unknownKey

/-- The warnings about the unknown keys of sets, set by set. -/
def setWarnings (sets : List (String × SetConfig × List String)) : List Warning :=
  sets.flatMap fun n => n.2.2.map (.unknownSetKey n.1)

variable {path : String}

theorem warnTop_eq (path : String) (keys : List String) :
    warnTop path keys = ⟨(topWarnings keys).flatMap (Warning.effects path), .ok ()⟩ := by
  have hkeys : (topWarnings keys).flatMap (Warning.effects path) = keys.flatMap fun key =>
      if key ∈ knownKeys then [] else (Warning.unknownKey key).effects path := by
    induction keys with
    | nil => rfl
    | cons key keys ih =>
      rw [List.flatMap_cons, ← ih, topWarnings, topWarnings, List.filter_cons]
      by_cases hkey : key ∈ knownKeys
      · simp [hkey]
      · simp [hkey]
  rw [hkeys]
  refine Action.forM_eq keys fun key _ => ?_
  split
  · rfl
  · exact Action.warn_eq path _

theorem warnSet_eq (path name : String) (unknown : List String) :
    warnSet path name unknown =
      ⟨(unknown.map (.unknownSetKey name)).flatMap (Warning.effects path), .ok ()⟩ := by
  rw [List.flatMap_map]
  exact Action.forM_eq unknown fun key _ => Action.warn_eq path _

/-- Taking over sets warns set by set and never fails. -/
theorem takeSets_eq (path : String) (sets : NameMap (SetConfig × List String)) :
    takeSets path sets =
      ⟨(setWarnings sets).flatMap (Warning.effects path), .ok (sets.map fun n => (n.1, n.2.1))⟩ := by
  induction sets with
  | nil => rfl
  | cons n rest ih =>
    obtain ⟨name, s, unknown⟩ := n
    have hwarnings : setWarnings ((name, s, unknown) :: rest) =
        unknown.map (.unknownSetKey name) ++ setWarnings rest := rfl
    rw [takeSets, warnSet_eq, ih, hwarnings, List.flatMap_append, Action.mk_bind, Action.mk_bind]
    simp [pure, Action.yield]

/-! ## Documents -/

/-- The configuration that a document holds, with all warnings in their order. -/
def decode (t : Toml.Table) : Except ConfigFault (Config × List Warning) :=
  match versionOf t with
  | .error fault => .error fault
  | .ok version =>
    match contentOf t with
    | .error fault => .error fault
    | .ok (sets, keys) =>
      .ok (⟨version, sets.map fun n => (n.1, n.2.1)⟩, topWarnings keys ++ setWarnings sets)

theorem orFault_ok {α : Type} (a : α) : orFault path (.ok a) = pure a := rfl

/-- **Reading a document** tells all its warnings in their order, or does nothing if it fails. -/
theorem ofTable_eq (path : String) (t : Toml.Table) :
    ofTable path t =
      match decode t with
      | .error fault => .fail (.config fault (some path))
      | .ok (config, warnings) => ⟨warnings.flatMap (Warning.effects path), .ok config⟩ := by
  rw [ofTable, decode]
  cases versionOf t with
  | error fault => rfl
  | ok version =>
    cases contentOf t with
    | error fault => rfl
    | ok content =>
      obtain ⟨sets, keys⟩ := content
      simp only [orFault_ok, Action.pure_bind, warnTop_eq, takeSets_eq, Action.mk_bind,
        List.flatMap_append]
      simp [pure, Action.yield]

/-! ## Sets in order -/

variable {config : Config} {warnings : List Warning}

theorem ascending_sets_of_decode {t : Toml.Table} (h : decode t = .ok (config, warnings)) :
    config.sets.Ascending := by
  rw [decode] at h
  split at h
  · cases h
  · split at h
    · cases h
    · rename_i sets keys hcontent
      obtain ⟨rfl, -⟩ := Prod.mk.inj (Except.ok.inj h)
      rw [contentOf] at hcontent
      split at hcontent
      · obtain ⟨rfl, -⟩ := Prod.mk.inj (Except.ok.inj hcontent)
        exact (NameMap.ascending_ofList _).map fun _ => rfl
      · cases hcontent

/-- **The sets of a configuration are in the order of their names.** -/
theorem ascending_sets_of_read {content path : String}
    (h : (read content path).result = .ok config) : config.sets.Ascending := by
  rw [read] at h
  split at h
  · cases h
  · rw [ofTable_eq] at h
    split at h
    · cases h
    · rename_i hdecode
      obtain rfl := Except.ok.inj h
      exact ascending_sets_of_decode hdecode

end Config

end PrefixPattern
