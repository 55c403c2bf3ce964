import Condr.Agent.HookConfigLaws

/-!
# Hooks are installed and uninstalled

An installation is recognised as one, an uninstallation as none, and both keep what the person
wrote: the hooks of each event that are not Condr's, in their order and with the other fields of
their groups, and every other key of the configuration. An item that runs Condr itself goes with
everything in it.
-/

namespace Condr

open Entries

/-! ## What is not Condr's -/

/-- The other fields of a group. -/
def withoutHooks : Json → Json
  | .object fields => .object (Entries.erase "hooks" fields)
  | item => item

/-- A hook that is not Condr's, or the other fields of a group with such hooks in it. -/
def foreignHooks (agent : AgentKind) (item : Json) : Option (Json × List Json) :=
  match item.arrayField "hooks" with
  | some nested =>
      let foreign := nested.filter fun hook => !isOurs agent hook
      if foreign.isEmpty then none else some (withoutHooks item, foreign)
  | none => if isOurs agent item then none else some (item, [])

theorem withoutHooks_stripGroup (agent : AgentKind) (item : Json) :
    withoutHooks (stripGroup agent item) = withoutHooks item := by
  cases item with
  | object fields =>
      rw [stripGroup]
      split
      · simp [withoutHooks, erase_set]
      · rfl
  | _ => rfl

theorem stripGroup_of_alone {agent : AgentKind} {item : Json}
    (alone : item.arrayField "hooks" = none) : stripGroup agent item = item := by
  cases item with
  | object fields =>
      rw [stripGroup]
      split
      · next nested found => simp [Json.arrayField, Json.get, found, Json.asArray] at alone
      · rfl
  | _ => rfl

/-- An item that is not Condr's keeps its foreign hooks. -/
theorem foreignHooks_stripGroup (agent : AgentKind) (item : Json) :
    (if keepsItem agent (stripGroup agent item) then
        foreignHooks agent (stripGroup agent item) else none) =
      if isOurs agent item then none else foreignHooks agent item := by
  rw [keepsItem, isOurs_stripGroup]
  cases ours : isOurs agent item with
  | true => rfl
  | false =>
      cases nested : item.arrayField "hooks" with
      | none => simp [stripGroup_of_alone nested, nested]
      | some hooks =>
          rw [foreignHooks, foreignHooks, arrayField_stripGroup, nested, withoutHooks_stripGroup]
          cases foreign : hooks.filter fun hook => !isOurs agent hook with
          | nil => simp [foreign]
          | cons first rest =>
              have again : (first :: rest).filter (fun hook => !isOurs agent hook) =
                  first :: rest := by
                rw [← foreign, List.filter_filter]
                simp
              simp [foreign, again]

/-- What is left of a list has its foreign hooks, but for those in an item of Condr's. -/
theorem foreignHooks_stripped (agent : AgentKind) (items : List Json) :
    ((items.map (stripGroup agent)).filter (keepsItem agent)).filterMap (foreignHooks agent) =
      (items.filter fun item => !isOurs agent item).filterMap (foreignHooks agent) := by
  induction items with
  | nil => rfl
  | cons item rest ih =>
      have step := foreignHooks_stripGroup agent item
      rw [List.map_cons, List.filter_cons, List.filter_cons]
      cases ours : isOurs agent item with
      | true =>
          have dropped : keepsItem agent (stripGroup agent item) = false := by
            rw [keepsItem, isOurs_stripGroup, ours]
            rfl
          simpa [dropped] using ih
      | false =>
          rw [ours] at step
          cases kept : keepsItem agent (stripGroup agent item) with
          | true =>
              have foreign : foreignHooks agent (stripGroup agent item) =
                  foreignHooks agent item := by simpa [kept] using step
              simp only [if_true, Bool.not_false, List.filterMap_cons, ih, foreign]
          | false =>
              have nothing : foreignHooks agent item = none := by
                simpa [kept, eq_comm] using step
              simpa [nothing] using ih

theorem foreignHooks_mapItem (target : HookTarget) (agent : AgentKind) (format : MapFormat)
    (entry : HookEntry) : foreignHooks agent (mapItem target agent format entry) = none := by
  rw [foreignHooks]
  rcases mapItem_cases target agent format entry with ⟨hook, nested, ours⟩ | ⟨nested, ours⟩
  · simp [nested, ours]
  · simp [nested, ours]

/-- The hooks of each event are the same, Condr's aside, and what is no list is the same. -/
structure HooksKept (agent : AgentKind) (before after : JsonMap) : Prop where
  foreign : ∀ event, (eventItems (hooksOf after) event).filterMap (foreignHooks agent) =
    ((eventItems (hooksOf before) event).filter fun item => !isOurs agent item).filterMap
      (foreignHooks agent)
  lone : ∀ event value, Entries.get event (hooksOf before) = some value →
    value.asArray = none → Entries.get event (hooksOf after) = some value
  shape : ∀ value, Entries.get "hooks" before = some value → value.asObject = none →
    Entries.get "hooks" after = some value

theorem hooksOf_uninstallMap {agent : AgentKind} {root : JsonMap}
    (nodup : (root.map Prod.fst).Nodup) :
    hooksOf (uninstallMap agent root) = hooksLeft agent (hooksOf root) := by
  unfold hooksOf
  rw [get_uninstallMap nodup, if_pos rfl]
  generalize Entries.get "hooks" root = hooks
  rcases hooks with _ | value
  · rfl
  · cases value with
    | object map =>
        rw [uninstalledHooks]
        split_ifs with empty
        · exact (List.isEmpty_iff.mp empty).symm
        · rfl
    | _ => rfl

theorem hooksKept_uninstallMap {agent : AgentKind} {root : JsonMap} (valid : ValidConfig root) :
    HooksKept agent root (uninstallMap agent root) := by
  refine ⟨fun event => ?_, fun event value found alone => ?_, fun value found other => ?_⟩
  · rw [hooksOf_uninstallMap valid.keys, eventItems_hooksLeft _ _ valid.events,
      eventItems_stripOurs, foreignHooks_stripped]
  · rw [hooksOf_uninstallMap valid.keys]
    exact get_hooksLeft_of_lone valid.events found alone
  · rw [get_uninstallMap valid.keys, if_pos rfl, found]
    cases value <;> first | rfl | cases other

/-! ## The state of a configuration -/

theorem foundItems_eq (agent : AgentKind) (root : JsonMap) :
    foundItems agent root = (hooksOf root).flatMap fun event =>
      ((event.2.asArray.getD []).filter (holdsOurs agent)).map fun item => (event.1, item) := rfl

/-- Condr's items of one event. -/
theorem filter_foundItems {agent : AgentKind} {map : JsonMap} (nodup : (map.map Prod.fst).Nodup)
    (wanted : String) :
    ((map.flatMap fun event =>
        ((event.2.asArray.getD []).filter (holdsOurs agent)).map fun item => (event.1, item)).filter
          fun found => decide (found.1 = wanted)) =
      ((eventItems map wanted).filter (holdsOurs agent)).map fun item => (wanted, item) := by
  induction map with
  | nil => rfl
  | cons event rest ih =>
      rcases event with ⟨native, value⟩
      rw [List.map_cons, List.nodup_cons] at nodup
      rw [List.flatMap_cons, List.filter_append, ih nodup.2, eventItems, eventItems, Entries.get]
      by_cases same : native = wanted
      · subst same
        have absent : Entries.get native rest = none := get_eq_none.mpr nodup.1
        simp [absent, List.filter_map, Function.comp_def]
      · simp [same, List.filter_map, Function.comp_def]

theorem mapState_of_stripped {target : HookTarget} {agent : AgentKind} {format : MapFormat}
    {root : JsonMap} (nodup : ((hooksOf root).map Prod.fst).Nodup)
    (stripped : ∀ event, ∀ item ∈ eventItems (hooksOf root) event, holdsOurs agent item = false) :
    mapState target agent format root = .missing := by
  have none : foundItems agent root = [] := by
    rw [foundItems_eq, List.eq_nil_iff_forall_not_mem]
    intro found contained
    have here : found ∈ (_ : List (String × Json)).filter
        fun item => decide (item.1 = found.1) := List.mem_filter.mpr ⟨contained, by simp⟩
    rw [filter_foundItems nodup] at here
    rcases List.mem_map.mp here with ⟨item, listed, -⟩
    rcases List.mem_filter.mp listed with ⟨contained, held⟩
    rw [stripped found.1 item contained] at held
    cases held
  simp [mapState, none]

/-- Condr's hooks of another number are not the ones this Condr installs. -/
theorem mapState_of_length_ne {target : HookTarget} {agent : AgentKind} {format : MapFormat}
    {root : JsonMap} (some : foundItems agent root ≠ [])
    (other : (foundItems agent root).length ≠ format.events.length) :
    mapState target agent format root = .outdated := by
  have empty : (foundItems agent root).isEmpty = false := by
    rw [List.isEmpty_eq_false_iff]
    exact some
  have apart : (Lists.sortBy Prod.fst (foundItems agent root)).length ≠
      (Lists.sortBy Prod.fst (expectedItems target agent format)).length := by
    rw [Lists.sortBy, Lists.sortBy, List.length_mergeSort, List.length_mergeSort, expectedItems,
      List.length_map]
    exact other
  rw [mapState, empty, List.isEqv_eq_decide, dif_neg apart]
  rfl

theorem mapState_uninstallMap {target : HookTarget} {agent : AgentKind} {format : MapFormat}
    {root : JsonMap} (valid : ValidConfig root) :
    mapState target agent format (uninstallMap agent root) = .missing := by
  apply mapState_of_stripped
  · rw [hooksOf_uninstallMap valid.keys, hooksLeft]
    apply List.Nodup.sublist (List.Sublist.map Prod.fst List.filter_sublist)
    rw [stripOurs, map_fst_mapValues]
    exact valid.events
  · intro event item contained
    rw [hooksOf_uninstallMap valid.keys, eventItems_hooksLeft _ _ valid.events] at contained
    exact holdsOurs_of_stripped contained

/-- A configuration with exactly the expected items of each event, and the version. -/
theorem mapState_of_expected {target : HookTarget} {agent : AgentKind} {format : MapFormat}
    {root : JsonMap} (nodup : ((hooksOf root).map Prod.fst).Nodup)
    (some : format.events ≠ []) (version : format.versionOk root = true)
    (expected : ∀ event, (eventItems (hooksOf root) event).filter (holdsOurs agent) =
      (format.events.filter fun entry => decide (entry.native = event)).map
        (mapItem target agent format)) :
    mapState target agent format root = .installed := by
  have alike : ∀ wanted, ((foundItems agent root).filter fun found => decide (found.1 = wanted)) =
      (expectedItems target agent format).filter fun found => decide (found.1 = wanted) := by
    intro wanted
    rw [foundItems_eq, filter_foundItems nodup, expected, expectedItems, List.filter_map,
      List.map_map]
    refine List.map_congr_left fun entry contained => ?_
    have native : entry.native = wanted := by simpa using (List.mem_filter.mp contained).2
    simp [native]
  have filled : (foundItems agent root).isEmpty = false := by
    rcases List.exists_mem_of_ne_nil _ some with ⟨entry, contained⟩
    have here : (entry.native, mapItem target agent format entry) ∈
        (foundItems agent root).filter fun found => decide (found.1 = entry.native) := by
      rw [alike, List.mem_filter]
      exact ⟨List.mem_map.mpr ⟨entry, contained, rfl⟩, by simp⟩
    rw [List.isEmpty_eq_false_iff]
    exact List.ne_nil_of_mem (List.mem_filter.mp here).1
  have reflexive : ∀ list : List (String × Json),
      (∀ found ∈ list, found.2.same found.2 = true) →
      (list.isEqv list fun item other => item.1 == other.1 && item.2.same other.2) = true := by
    intro list same
    induction list with
    | nil => rfl
    | cons first rest ih =>
        rw [List.isEqv, same first (by simp), ih fun found later => same found (by simp [later])]
        simp
  have equal := Lists.sortBy_congr alike
  have sorted := reflexive (Lists.sortBy Prod.fst (expectedItems target agent format)) (by
    intro found contained
    rw [Lists.sortBy, List.mem_mergeSort] at contained
    rcases List.mem_map.mp contained with ⟨entry, -, rfl⟩
    exact same_mapItem target agent format entry)
  simp [mapState, filled, equal, sorted, version]

/-! ## The laws of an installation -/

section Installation

variable {target : HookTarget} {agent : AgentKind} {format : MapFormat} {path : String}
  {root next : JsonMap}

/-- An installation: the configuration with its version, and the hooks added to what is left. -/
theorem exists_of_installMap (installed : installMap target agent format path root = .ok next) :
    ∃ base map, next = Entries.set "hooks" (.object map) base ∧
      hooksOf next = map ∧ hooksOf base = hooksOf root ∧
      ((root.map Prod.fst).Nodup → (base.map Prod.fst).Nodup) ∧
      (∀ key, Entries.get key base =
        if key = "version" then versionAfter format root else Entries.get key root) ∧
      (Entries.get "version" root = none ∨
        versionAfter format root = Entries.get "version" root) ∧
      (Entries.get "hooks" root).all (fun value => value.asObject.isSome) = true ∧
      format.events.foldlM (pushEntry target agent format path)
        (stripOurs agent (hooksOf root)) = .ok map := by
  rcases installMap_eq_ok.mp installed with ⟨base, map, versioned, accepted, pushed, rfl⟩
  rcases versioned_spec versioned with ⟨same, nodup, version⟩
  have hooks : Entries.get "hooks" base = Entries.get "hooks" root := by
    rw [same, if_neg (by decide)]
  have found : hooksOf base = hooksOf root := by rw [hooksOf, hooks, hooksOf]
  rw [hooks] at accepted
  rw [found] at pushed
  refine ⟨base, map, rfl, ?_, found, nodup, same, version, accepted, pushed⟩
  simp [hooksOf, get_set, Json.asObject]

theorem validConfig_of_installMap (valid : ValidConfig root)
    (installed : installMap target agent format path root = .ok next) : ValidConfig next := by
  rcases exists_of_installMap installed with
    ⟨base, map, stored, hooks, -, nodup, -, -, -, pushed⟩
  constructor
  · rw [stored]
    exact nodup_set (nodup valid.keys)
  · rw [hooks]
    apply nodup_foldlM pushed
    rw [stripOurs, map_fst_mapValues]
    exact valid.events

theorem versionOk_of_versionAfter
    (version : Entries.get "version" next = versionAfter format root) :
    format.versionOk next = true := by
  cases format with
  | nestedMap events shell => rfl
  | flatList events exec =>
      rw [MapFormat.versionOk, version]
      rfl

theorem mapState_installMap (some : format.events ≠ []) (valid : ValidConfig root)
    (installed : installMap target agent format path root = .ok next) :
    mapState target agent format next = .installed := by
  have nodup := (validConfig_of_installMap valid installed).events
  rcases exists_of_installMap installed with
    ⟨base, map, stored, hooks, -, -, same, -, -, pushed⟩
  apply mapState_of_expected nodup some
  · apply versionOk_of_versionAfter
    rw [stored, get_set, if_neg (by decide), same, if_pos rfl]
  · intro event
    rw [hooks, eventItems_foldlM pushed, List.filter_append]
    have own : (eventItems (stripOurs agent (hooksOf root)) event).filter (holdsOurs agent) =
        [] := by
      rw [List.filter_eq_nil_iff]
      intro item contained
      rw [holdsOurs_of_stripped contained]
      exact Bool.false_ne_true
    have added : ∀ entries : List HookEntry,
        (entries.map (mapItem target agent format)).filter (holdsOurs agent) =
          entries.map (mapItem target agent format) := by
      intro entries
      rw [List.filter_eq_self]
      intro item contained
      rcases List.mem_map.mp contained with ⟨entry, -, rfl⟩
      exact holdsOurs_mapItem target agent format entry
    rw [own, added, List.nil_append]

theorem hooksKept_installMap (installed : installMap target agent format path root = .ok next) :
    HooksKept agent root next := by
  rcases exists_of_installMap installed with
    ⟨base, map, stored, hooks, -, -, -, -, accepted, pushed⟩
  refine ⟨fun event => ?_, fun event value found alone => ?_, fun value found other => ?_⟩
  · rw [hooks, eventItems_foldlM pushed, List.filterMap_append, eventItems_stripOurs,
      foreignHooks_stripped]
    have added : ∀ entries : List HookEntry,
        (entries.map (mapItem target agent format)).filterMap (foreignHooks agent) = [] := by
      intro entries
      rw [List.filterMap_eq_nil_iff]
      intro item contained
      rcases List.mem_map.mp contained with ⟨entry, -, rfl⟩
      exact foreignHooks_mapItem target agent format entry
    rw [added, List.append_nil]
  · rw [hooks]
    apply get_foldlM pushed _ alone
    rw [stripOurs, get_mapValues, found]
    cases value <;> first | rfl | cases alone
  · rw [found] at accepted
    simp [other] at accepted

/-- Uninstalling after an installation is uninstalling, but for the version. -/
theorem get_uninstallMap_installMap (valid : ValidConfig root)
    (installed : installMap target agent format path root = .ok next) {key : String}
    (other : key ≠ "version") :
    Entries.get key (uninstallMap agent next) = Entries.get key (uninstallMap agent root) := by
  have keys := (validConfig_of_installMap valid installed).keys
  rcases exists_of_installMap installed with
    ⟨base, map, stored, hooks, -, -, same, -, accepted, pushed⟩
  rw [get_uninstallMap keys, get_uninstallMap valid.keys]
  split_ifs with here
  · have left := hooksLeft_foldlM pushed
    rw [stored, get_set, if_pos rfl, uninstalledHooks, left]
    cases found : Entries.get "hooks" root with
    | none =>
        rw [hooksOf, found]
        rfl
    | some value =>
        rw [hooksOf, found]
        rw [found] at accepted
        cases value with
        | object fields => rfl
        | _ => cases accepted
  · rw [stored, get_set, if_neg (Ne.symm here), same, if_neg other]

end Installation

theorem AgentKind.events_ne_nil {agent : AgentKind} {format : MapFormat}
    (known : agent.mapFormat = some format) : format.events ≠ [] := by
  cases agent <;> cases known <;> exact List.cons_ne_nil _ _

/-- Installing again changes nothing, the state is what was done, everyone else's hooks and keys
are kept, and uninstalling leaves what it would have left before. -/
theorem hooks_laws {agent : AgentKind} {format : MapFormat}
    (known : agent.mapFormat = some format) (target : HookTarget) (path : String) {root : JsonMap}
    (valid : ValidConfig root) :
    (mapState target agent format (uninstallMap agent root) = .missing ∧
      HooksKept agent root (uninstallMap agent root) ∧
      ∀ key, key ≠ "hooks" →
        Entries.get key (uninstallMap agent root) = Entries.get key root) ∧
    ∀ next, installMap target agent format path root = .ok next →
      ValidConfig next ∧
      installMap target agent format path next = .ok next ∧
      mapState target agent format next = .installed ∧
      HooksKept agent root next ∧
      (∀ key, key ≠ "hooks" → Entries.get key next = Entries.get key root ∨
        key = "version" ∧ Entries.get key root = none) ∧
      ∀ key, key ≠ "version" →
        Entries.get key (uninstallMap agent next) = Entries.get key (uninstallMap agent root) := by
  refine ⟨⟨mapState_uninstallMap valid, hooksKept_uninstallMap valid, fun key other => ?_⟩,
    fun next installed => ⟨validConfig_of_installMap valid installed,
      installMap_installMap installed,
      mapState_installMap (AgentKind.events_ne_nil known) valid installed,
      hooksKept_installMap installed, fun key other => ?_,
      fun key other => get_uninstallMap_installMap valid installed other⟩⟩
  · rw [get_uninstallMap valid.keys, if_neg other]
  · rcases exists_of_installMap installed with
      ⟨base, map, stored, -, -, -, same, version, -, -⟩
    rw [stored, get_set, if_neg (Ne.symm other), same]
    by_cases here : key = "version"
    · subst here
      rw [if_pos rfl]
      rcases version with absent | kept
      · exact .inr ⟨rfl, absent⟩
      · exact .inl kept
    · exact .inl (if_neg here)

section Examples

/-- A hook of the person's own. -/
def sayDone : Json := .object [("type", .string "command"), ("command", .string "say done")]

def onPath : HookTarget where
  command := "condr"
  windows := false
  environment := fun _ => none

/-- What another Condr has installed. -/
def olderHook : Json :=
  .object [("type", .string "command"), ("command", .string "/old/condr agent-hook claude stop")]

/-- A group of the person's with Condr's hook between theirs, and one of Condr's alone. -/
def mixedHooks : JsonMap :=
  [("model", .string "opus"),
    ("hooks", .object [
      ("Stop", .array [
        .object [("matcher", .string "*"), ("hooks", .array [sayDone, olderHook, sayDone])]]),
      ("SessionEnd", .array [.object [("hooks", .array [olderHook])]])])]

/-- A group that runs Condr itself, with a hook of the person's own in it. -/
def ownGroup : JsonMap :=
  [("hooks", .object [("Stop", .array [.object
    [("command", .string "condr agent-hook claude stop"), ("hooks", .array [sayDone])]])])]

theorem hooks_laws_mixed_hooks :
    mapState onPath .claude (.nestedMap claudeHooks .plain) mixedHooks = .outdated ∧
      mapState onPath .claude (.nestedMap claudeHooks .plain) (uninstallMap .claude mixedHooks) =
        .missing ∧
      ∃ next, installMap onPath .claude (.nestedMap claudeHooks .plain) "settings.json" mixedHooks =
          .ok next ∧
        mapState onPath .claude (.nestedMap claudeHooks .plain) next = .installed ∧
        (eventItems (hooksOf next) "Stop").filterMap (foreignHooks .claude) =
          [(.object [("matcher", .string "*")], [sayDone, sayDone])] ∧
        (eventItems (hooksOf next) "SessionEnd").filterMap (foreignHooks .claude) = [] :=
  have laws := @hooks_laws .claude _ rfl onPath "settings.json" mixedHooks ⟨by decide, by decide⟩
  have installed := laws.2 _ rfl
  ⟨mapState_of_length_ne (List.cons_ne_nil _ _) (by decide), laws.1.1, _, rfl, installed.2.2.1, installed.2.2.2.1.foreign "Stop",
    installed.2.2.2.1.foreign "SessionEnd"⟩

/-- The group goes with the hook in it. -/
theorem own_group_lost :
    ∃ next, installMap onPath .claude (.nestedMap claudeHooks .plain) "settings.json" ownGroup =
        .ok next ∧
      (eventItems (hooksOf next) "Stop").filterMap (foreignHooks .claude) ≠
        (eventItems (hooksOf ownGroup) "Stop").filterMap (foreignHooks .claude) := by
  refine ⟨_, rfl, fun same => ?_⟩
  have lengths := congrArg List.length same
  revert lengths
  decide

end Examples

end Condr
