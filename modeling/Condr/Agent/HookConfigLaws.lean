import Condr.Agent.HookConfig

/-!
# What installing hooks changes

Taking Condr's hooks out leaves the same hooks of everyone else, and what Condr adds is taken out
whole. So a second installation finds what the first one left, and uninstalling finds what it
would have found before.
-/

namespace Condr

open Entries

/-! ## Recognising Condr's hooks -/

/-- What an event of a map lists. -/
def eventItems (map : JsonMap) (event : String) : List Json :=
  ((Entries.get event map).bind Json.asArray).getD []

/-- The map of hooks in a configuration. -/
def hooksOf (root : JsonMap) : JsonMap := ((Entries.get "hooks" root).bind Json.asObject).getD []

theorem marker_infix_hookCommand (target : HookTarget) (agent : AgentKind)
    (event : AgentEventKind) (shell : HookShell) :
    (marker agent).toList <:+: (target.hookCommand agent event shell).toList := by
  unfold HookTarget.hookCommand
  extract_lets powerShell call
  refine ⟨call.toList ++ target.command.toList, event.name.toList, ?_⟩
  simp [marker]

theorem isOurs_of_command {agent : AgentKind} {hook : Json} {command : String}
    (runs : hook.get "command" = some (.string command))
    (marked : (marker agent).toList <:+: command.toList) : isOurs agent hook = true := by
  simp [isOurs, runs, Json.asStr, marked]

theorem isOurs_of_args {agent : AgentKind} {hook : Json} {rest : List Json}
    (runs : hook.get "args" = some (.array (.string "agent-hook" :: .string agent.spec.id :: rest))) :
    isOurs agent hook = true := by
  simp [isOurs, Json.arrayField, runs, Json.asArray]

theorem isOurs_stripGroup (agent : AgentKind) (item : Json) :
    isOurs agent (stripGroup agent item) = isOurs agent item := by
  cases item with
  | object fields =>
      rw [stripGroup]
      split
      · simp only [isOurs, Json.arrayField, Json.get, get_set]
        rfl
      · rfl
  | _ => rfl

/-- A group's hooks after Condr's are gone. -/
theorem arrayField_stripGroup (agent : AgentKind) (item : Json) :
    (stripGroup agent item).arrayField "hooks" =
      (item.arrayField "hooks").map (List.filter fun hook => !isOurs agent hook) := by
  cases item with
  | object fields =>
      rw [stripGroup]
      split
      · next nested found =>
          simp [Json.arrayField, Json.get, get_set, found, Json.asArray]
      · next other =>
          cases found : Entries.get "hooks" fields with
          | none => simp [Json.arrayField, Json.get, found]
          | some value =>
              cases value with
              | array nested => exact absurd found (other nested)
              | _ => simp [Json.arrayField, Json.get, found, Json.asArray]
  | _ => rfl

theorem stripGroup_stripGroup (agent : AgentKind) (item : Json) :
    stripGroup agent (stripGroup agent item) = stripGroup agent item := by
  cases item with
  | object fields =>
      cases found : Entries.get "hooks" fields with
      | none => simp [stripGroup, found]
      | some value =>
          cases value with
          | array nested => simp [stripGroup, found, get_set, set_set]
          | _ => simp [stripGroup, found]
  | _ => rfl

/-- No group that is kept holds a hook of Condr's. -/
theorem holdsOurs_stripGroup {agent : AgentKind} {item : Json}
    (kept : keepsItem agent (stripGroup agent item) = true) :
    holdsOurs agent (stripGroup agent item) = false := by
  simp only [keepsItem, Bool.and_eq_true, Bool.not_eq_true'] at kept
  rw [holdsOurs, kept.1, arrayField_stripGroup, Bool.false_or]
  cases item.arrayField "hooks" with
  | none => rfl
  | some nested => simp

section Items

variable (target : HookTarget) (agent : AgentKind) (format : MapFormat) (entry : HookEntry)

/-- An item of a group: the one hook in it is Condr's. -/
theorem mapItem_cases :
    (∃ hook, (mapItem target agent format entry).arrayField "hooks" = some [hook] ∧
      isOurs agent hook = true) ∨
    ((mapItem target agent format entry).arrayField "hooks" = none ∧
      isOurs agent (mapItem target agent format entry) = true) := by
  rcases format with ⟨events, shell⟩ | ⟨events, _ | _⟩
  · left
    refine ⟨.object [("type", .string "command"),
        ("command", .string (target.hookCommand agent entry.event shell)),
        ("timeout", .number (.int entry.timeoutSecs))], ?_,
      isOurs_of_command rfl (marker_infix_hookCommand target agent entry.event shell)⟩
    cases found : entry.matcher <;>
      simp [mapItem, found, Json.arrayField, Json.get, get_set, Entries.get, Json.asArray]
  · right
    constructor
    · cases found : entry.matcher <;>
        simp [mapItem, found, Json.arrayField, Json.get, get_set, Entries.get]
    · apply isOurs_of_command _ (marker_infix_hookCommand target agent entry.event .plain)
      cases found : entry.matcher <;> simp [mapItem, found, Json.get, get_set, Entries.get]
  · right
    constructor
    · cases found : entry.matcher <;>
        simp [mapItem, found, Json.arrayField, Json.get, get_set, Entries.get]
    · have runs : (mapItem target agent (.flatList events true) entry).get "args" =
          some (.array [.string "agent-hook", .string agent.spec.id,
            .string entry.event.name]) := by
        cases found : entry.matcher <;> simp [mapItem, found, Json.get, get_set, Entries.get]
      exact isOurs_of_args runs

theorem keepsItem_mapItem :
    keepsItem agent (stripGroup agent (mapItem target agent format entry)) = false := by
  rw [keepsItem, isOurs_stripGroup, arrayField_stripGroup]
  rcases mapItem_cases target agent format entry with ⟨hook, nested, ours⟩ | ⟨nested, ours⟩
  · simp [nested, ours]
  · simp [ours]

theorem holdsOurs_mapItem : holdsOurs agent (mapItem target agent format entry) = true := by
  rcases mapItem_cases target agent format entry with ⟨hook, nested, ours⟩ | ⟨nested, ours⟩
  · simp [holdsOurs, nested, ours]
  · simp [holdsOurs, ours]

theorem same_mapItem :
    (mapItem target agent format entry).same (mapItem target agent format entry) = true := by
  rcases format with ⟨events, shell⟩ | ⟨events, _ | _⟩ <;> cases found : entry.matcher <;>
    simp [mapItem, found, Json.same, Json.sameFields, Json.sameItems, Entries.get, Entries.set,
      JsonNumber.same]

end Items

/-! ## Taking Condr's hooks out -/

theorem stripItems_stripItems (agent : AgentKind) (value : Json) :
    stripItems agent (stripItems agent value) = stripItems agent value := by
  cases value with
  | array items =>
      have settled : ((items.map (stripGroup agent)).filter (keepsItem agent)).map
          (stripGroup agent) = (items.map (stripGroup agent)).filter (keepsItem agent) := by
        rw [List.map_congr_left (g := id), List.map_id]
        intro item contained
        rcases List.mem_map.mp (List.mem_filter.mp contained).1 with ⟨group, -, rfl⟩
        exact stripGroup_stripGroup agent group
      simp only [stripItems]
      rw [settled, List.filter_filter]
      simp
  | _ => rfl

theorem stripOurs_stripOurs (agent : AgentKind) (map : JsonMap) :
    stripOurs agent (stripOurs agent map) = stripOurs agent map := by
  simp [stripOurs, mapValues, stripItems_stripItems]

theorem eventItems_stripOurs (agent : AgentKind) (map : JsonMap) (event : String) :
    eventItems (stripOurs agent map) event =
      ((eventItems map event).map (stripGroup agent)).filter (keepsItem agent) := by
  rw [eventItems, eventItems, stripOurs, get_mapValues]
  cases Entries.get event map with
  | none => rfl
  | some value => cases value <;> rfl

/-- What is left holds none of Condr's hooks. -/
theorem holdsOurs_of_stripped {agent : AgentKind} {map : JsonMap} {event : String} {item : Json}
    (contained : item ∈ eventItems (stripOurs agent map) event) : holdsOurs agent item = false := by
  rw [eventItems_stripOurs, List.mem_filter] at contained
  rcases contained with ⟨contained, kept⟩
  rcases List.mem_map.mp contained with ⟨group, -, rfl⟩
  exact holdsOurs_stripGroup kept

/-! ## Adding Condr's hooks -/

/-- A value that lists items, if any. -/
def listsItems (value : Option Json) : Bool := value.all fun value => value.asArray.isSome

section Push

variable {target : HookTarget} {agent : AgentKind} {format : MapFormat} {path : String}

theorem pushEntry_eq {map : JsonMap} {entry : HookEntry} :
    pushEntry target agent format path map entry =
      if listsItems (Entries.get entry.native map) then
        .ok (Entries.set entry.native
          (.array (eventItems map entry.native ++ [mapItem target agent format entry])) map)
      else .error (Install.invalid path ("hooks." ++ entry.native ++ " is not an array")) := by
  simp only [pushEntry, get_orInsert, if_true, set_orInsert_self]
  cases found : Entries.get entry.native map with
  | none => simp [eventItems, found, listsItems]
  | some value => cases value <;> simp [eventItems, found, listsItems, Json.asArray]

theorem eventItems_set (map : JsonMap) (event other : String) (items : List Json) :
    eventItems (Entries.set event (.array items) map) other =
      if event = other then items else eventItems map other := by
  rw [eventItems, get_set]
  split_ifs <;> rfl

theorem eventItems_orInsert (map : JsonMap) (event other : String) :
    eventItems (Entries.orInsert event (.array []) map) other = eventItems map other := by
  rw [eventItems, get_orInsert]
  split_ifs with same
  · subst same
    cases found : Entries.get event map with
    | none => simp [eventItems, found, Json.asArray]
    | some value => simp [eventItems, found]
  · rfl

theorem listsItems_orInsert (map : JsonMap) (event other : String) :
    listsItems (Entries.get other (Entries.orInsert event (.array []) map)) =
      listsItems (Entries.get other map) := by
  rw [get_orInsert]
  split_ifs with same
  · subst same
    cases Entries.get event map <;> rfl
  · rfl

/-- An event that is there takes an item before or after another event is added. -/
theorem pushEntry_orInsert {map : JsonMap} {entry : HookEntry} {event : String}
    (present : Entries.get entry.native map ≠ none ∨ event = entry.native) :
    pushEntry target agent format path (Entries.orInsert event (.array []) map) entry =
      (pushEntry target agent format path map entry).map (Entries.orInsert event (.array [])) := by
  rw [pushEntry_eq, pushEntry_eq, eventItems_orInsert, listsItems_orInsert]
  split_ifs
  · refine congrArg Except.ok ?_
    rcases present with present | rfl
    · exact set_orInsert present
    · rw [set_orInsert_self, orInsert_of_present]
      simp [get_set]
  · rfl

/-- The map with these events in it. -/
def ensured (map : JsonMap) (events : List String) : JsonMap :=
  events.foldl (fun map event => Entries.orInsert event (.array []) map) map

theorem pushEntry_ensured {map : JsonMap} {entry : HookEntry}
    (present : Entries.get entry.native map ≠ none) (events : List String) :
    pushEntry target agent format path (ensured map events) entry =
      (pushEntry target agent format path map entry).map fun next => ensured next events := by
  induction events generalizing map with
  | nil =>
      simp only [ensured, List.foldl_nil]
      cases pushEntry target agent format path map entry <;> rfl
  | cons event events ih =>
      have still : Entries.get entry.native (Entries.orInsert event (.array []) map) ≠ none := by
        rw [get_orInsert]
        split_ifs
        · simp
        · exact present
      have step : ∀ map, ensured map (event :: events) =
          ensured (Entries.orInsert event (.array []) map) events := fun _ => rfl
      simp only [step]
      rw [ih still, pushEntry_orInsert (.inl present)]
      cases pushEntry target agent format path map entry <;> rfl

/-- Adding the events first does not show in what is added to them. -/
theorem foldlM_pushEntry_ensured (map : JsonMap) (entries : List HookEntry) :
    entries.foldlM (pushEntry target agent format path)
        (ensured map (entries.map HookEntry.native)) =
      entries.foldlM (pushEntry target agent format path) map := by
  induction entries generalizing map with
  | nil => rfl
  | cons entry rest ih =>
      have step : ensured map ((entry :: rest).map HookEntry.native) =
          ensured (Entries.orInsert entry.native (.array []) map)
            (rest.map HookEntry.native) := rfl
      rw [List.foldlM_cons, List.foldlM_cons, step,
        pushEntry_ensured (present_orInsert entry.native (.array []) map),
        pushEntry_orInsert (.inr rfl)]
      cases pushed : pushEntry target agent format path map entry with
      | error detail => rfl
      | ok next =>
          have inserted : Entries.orInsert entry.native (.array []) next = next := by
            rw [pushEntry_eq] at pushed
            split_ifs at pushed
            cases pushed
            apply orInsert_of_present
            simp [get_set]
          simp only [Except.map, Lists.ok_bind, inserted]
          exact ih next

/-- What is added is taken out, but for the event. -/
theorem stripOurs_pushEntry {map next : JsonMap} {entry : HookEntry}
    (pushed : pushEntry target agent format path map entry = .ok next) :
    stripOurs agent next = Entries.orInsert entry.native (.array []) (stripOurs agent map) := by
  rw [pushEntry_eq] at pushed
  split_ifs at pushed with accepted
  cases pushed
  have gone : stripItems agent (.array (eventItems map entry.native ++
      [mapItem target agent format entry])) =
      stripItems agent (.array (eventItems map entry.native)) := by
    simp [stripItems, keepsItem_mapItem]
  rw [stripOurs, mapValues_set, gone]
  cases found : Entries.get entry.native map with
  | none =>
      have absent : Entries.get entry.native (mapValues (stripItems agent) map) = none := by
        rw [get_mapValues, found]
        rfl
      rw [set_of_absent absent]
      simp [stripOurs, Entries.orInsert, absent, eventItems, found, stripItems]
  | some value =>
      have present : Entries.get entry.native (mapValues (stripItems agent) map) =
          some (stripItems agent value) := by
        rw [get_mapValues, found]
        rfl
      have itself : Json.array (eventItems map entry.native) = value := by
        rw [found] at accepted
        cases value <;> simp [listsItems, Json.asArray] at accepted
        simp [eventItems, found, Json.asArray]
      rw [itself, set_eq_self present, stripOurs, orInsert_of_present (by simp [present])]

theorem stripOurs_foldlM {map next : JsonMap} {entries : List HookEntry}
    (pushed : entries.foldlM (pushEntry target agent format path) map = .ok next) :
    stripOurs agent next = ensured (stripOurs agent map) (entries.map HookEntry.native) := by
  induction entries generalizing map with
  | nil =>
      cases pushed
      rfl
  | cons entry rest ih =>
      rw [List.foldlM_cons, Lists.bind_eq_ok] at pushed
      rcases pushed with ⟨middle, first, later⟩
      rw [ih later, stripOurs_pushEntry first]
      rfl

/-- Each event lists what it did and then what was added to it. -/
theorem eventItems_foldlM {map next : JsonMap} {entries : List HookEntry}
    (pushed : entries.foldlM (pushEntry target agent format path) map = .ok next)
    (event : String) :
    eventItems next event = eventItems map event ++
      (entries.filter fun entry => decide (entry.native = event)).map
        (mapItem target agent format) := by
  induction entries generalizing map with
  | nil =>
      cases pushed
      simp
  | cons entry rest ih =>
      rw [List.foldlM_cons, Lists.bind_eq_ok] at pushed
      rcases pushed with ⟨middle, first, later⟩
      rw [pushEntry_eq] at first
      split_ifs at first
      cases first
      rw [ih later, eventItems_set]
      by_cases same : entry.native = event
      · subst same
        simp
      · simp [same]

theorem nodup_foldlM {map next : JsonMap} {entries : List HookEntry}
    (pushed : entries.foldlM (pushEntry target agent format path) map = .ok next)
    (nodup : (map.map Prod.fst).Nodup) : (next.map Prod.fst).Nodup := by
  induction entries generalizing map with
  | nil =>
      cases pushed
      exact nodup
  | cons entry rest ih =>
      rw [List.foldlM_cons, Lists.bind_eq_ok] at pushed
      rcases pushed with ⟨middle, first, later⟩
      rw [pushEntry_eq] at first
      split_ifs at first
      cases first
      exact ih later (nodup_set nodup)

/-- A value that is no list is not added to. -/
theorem get_foldlM {map next : JsonMap} {entries : List HookEntry} {event : String} {value : Json}
    (pushed : entries.foldlM (pushEntry target agent format path) map = .ok next)
    (found : Entries.get event map = some value) (lone : value.asArray = none) :
    Entries.get event next = some value := by
  induction entries generalizing map with
  | nil =>
      cases pushed
      exact found
  | cons entry rest ih =>
      rw [List.foldlM_cons, Lists.bind_eq_ok] at pushed
      rcases pushed with ⟨middle, first, later⟩
      rw [pushEntry_eq] at first
      split_ifs at first with accepted
      cases first
      apply ih later
      rw [get_set, if_neg, found]
      rintro rfl
      simp [listsItems, found, lone] at accepted

end Push

/-! ## The whole configuration -/

/-- The keys of a map are distinct. -/
structure ValidConfig (root : JsonMap) : Prop where
  keys : (root.map Prod.fst).Nodup
  events : ((hooksOf root).map Prod.fst).Nodup

section Install

variable {target : HookTarget} {agent : AgentKind} {format : MapFormat} {path : String}

/-- The value the version has after an installation. -/
def versionAfter (format : MapFormat) (root : JsonMap) : Option Json :=
  match format with
  | .nestedMap _ _ => Entries.get "version" root
  | .flatList _ _ => some (.number (.int 1))

theorem eq_one_of_isOne {value : Json} (one : isOne value = true) : value = .number (.int 1) := by
  rcases value with _ | _ | (value | bits) | _ | _ | _ <;> simp [isOne] at one
  rw [one]

theorem versioned_spec {root base : JsonMap} (versioned : format.versioned path root = .ok base) :
    (∀ key, Entries.get key base =
      if key = "version" then versionAfter format root else Entries.get key root) ∧
    ((root.map Prod.fst).Nodup → (base.map Prod.fst).Nodup) ∧
    (Entries.get "version" root = none ∨
      versionAfter format root = Entries.get "version" root) := by
  cases format with
  | nestedMap events shell =>
      cases versioned
      refine ⟨fun key => ?_, id, .inr rfl⟩
      split_ifs with same
      · rw [same]
        rfl
      · rfl
  | flatList events exec =>
      rw [MapFormat.versioned] at versioned
      split_ifs at versioned with refused
      cases versioned
      refine ⟨fun key => ?_, nodup_set, ?_⟩
      · rw [get_set]
        by_cases same : key = "version"
        · rw [if_pos same, if_pos same.symm]
          rfl
        · rw [if_neg same, if_neg (Ne.symm same)]
      · cases found : Entries.get "version" root with
        | none => exact .inl rfl
        | some version =>
            right
            have one : isOne version = true := by simpa [found] using refused
            rw [eq_one_of_isOne one]
            rfl

/-- A configuration that has the version keeps it. -/
theorem versioned_of_settled {root : JsonMap}
    (settled : Entries.get "version" root = versionAfter format root) :
    format.versioned path root = .ok root := by
  cases format with
  | nestedMap events shell => rfl
  | flatList events exec =>
      rw [versionAfter] at settled
      rw [MapFormat.versioned, if_neg (by simp [settled, isOne]), set_eq_self settled]

theorem hooksMap_eq_ok {root : JsonMap} {found : JsonMap × JsonMap} :
    hooksMap root = .ok found ↔
      (Entries.get "hooks" root).all (fun value => value.asObject.isSome) = true ∧
      found = (Entries.orInsert "hooks" (.object []) root, hooksOf root) := by
  simp only [hooksMap, get_orInsert, if_true, hooksOf]
  cases Entries.get "hooks" root with
  | none => simp [eq_comm]
  | some value => cases value <;> simp [Json.asObject, eq_comm]

/-- An installation sets the version and adds to the hooks that are left. -/
theorem installMap_eq_ok {root next : JsonMap} :
    installMap target agent format path root = .ok next ↔
      ∃ base map, format.versioned path root = .ok base ∧
        (Entries.get "hooks" base).all (fun value => value.asObject.isSome) = true ∧
        format.events.foldlM (pushEntry target agent format path)
          (stripOurs agent (hooksOf base)) = .ok map ∧
        next = Entries.set "hooks" (.object map) base := by
  simp only [installMap, Lists.bind_eq_ok, hooksMap_eq_ok]
  constructor
  · rintro ⟨base, versioned, found, ⟨accepted, rfl⟩, map, pushed, stored⟩
    refine ⟨base, map, versioned, accepted, pushed, ?_⟩
    cases stored
    exact set_orInsert_self "hooks" (.object map) (.object []) base
  · rintro ⟨base, map, versioned, accepted, pushed, rfl⟩
    refine ⟨base, versioned, _, ⟨accepted, rfl⟩, map, pushed, ?_⟩
    exact congrArg Except.ok (set_orInsert_self "hooks" (.object map) (.object []) base)

/-- Installing over an installation changes nothing. -/
theorem installMap_installMap {root next : JsonMap}
    (installed : installMap target agent format path root = .ok next) :
    installMap target agent format path next = .ok next := by
  rcases installMap_eq_ok.mp installed with ⟨base, map, versioned, accepted, pushed, rfl⟩
  have version := (versioned_spec versioned).1
  have hooks : hooksOf (Entries.set "hooks" (.object map) base) = map := by
    simp [hooksOf, get_set, Json.asObject]
  refine installMap_eq_ok.mpr ⟨Entries.set "hooks" (.object map) base, map, ?_, ?_, ?_, ?_⟩
  · apply versioned_of_settled
    have kept : Entries.get "version" (Entries.set "hooks" (.object map) base) =
        versionAfter format root := by
      rw [get_set, if_neg (by decide), version, if_pos rfl]
    rw [kept]
    cases format with
    | nestedMap events shell => exact kept.symm
    | flatList events exec => rfl
  · simp [get_set, Json.asObject]
  · rw [hooks, stripOurs_foldlM pushed, stripOurs_stripOurs, foldlM_pushEntry_ensured]
    exact pushed
  · rw [set_set]

/-! ## Uninstalling -/

/-- The value of `hooks` after an uninstallation. -/
def uninstalledHooks (agent : AgentKind) (hooks : Option Json) : Option Json :=
  match hooks with
  | some (.object map) =>
      if (hooksLeft agent map).isEmpty then none else some (.object (hooksLeft agent map))
  | other => other

/-- The empty map of hooks goes, and nothing else. -/
theorem get_dropEmptyHooks {root : JsonMap} (nodup : (root.map Prod.fst).Nodup) (key : String) :
    Entries.get key (dropEmptyHooks root) =
      if key = "hooks" then (match Entries.get "hooks" root with
        | some (.object []) => none
        | other => other)
      else Entries.get key root := by
  unfold dropEmptyHooks
  by_cases same : key = "hooks"
  · subst same
    rw [if_pos rfl]
    have gone : Entries.get "hooks" (Entries.swapRemove "hooks" root) = none := by
      rw [Entries.get_swapRemove nodup, if_pos rfl]
    cases found : Entries.get "hooks" root with
    | none => exact found
    | some value =>
        cases value with
        | object map =>
            cases map with
            | nil => exact gone
            | cons entry rest => exact found
        | _ => exact found
  · rw [if_neg same]
    split
    · rw [get_swapRemove nodup, if_neg (Ne.symm same)]
    · rfl

theorem get_uninstallMap {root : JsonMap} (nodup : (root.map Prod.fst).Nodup) (key : String) :
    Entries.get key (uninstallMap agent root) =
      if key = "hooks" then uninstalledHooks agent (Entries.get "hooks" root)
      else Entries.get key root := by
  unfold uninstallMap
  split
  · next map found =>
      rw [get_dropEmptyHooks (nodup_set nodup), get_set, if_pos rfl, get_set, found]
      by_cases same : key = "hooks"
      · rw [if_pos same, if_pos same, uninstalledHooks]
        cases hooksLeft agent map <;> rfl
      · rw [if_neg same, if_neg same, if_neg (Ne.symm same)]
  · next other =>
      rw [get_dropEmptyHooks nodup]
      congr 1
      cases found : Entries.get "hooks" root with
      | none => rfl
      | some value =>
          cases value with
          | object map => exact absurd found (other map)
          | _ => rfl

/-- What is left of a map lists what its events do without Condr's hooks. -/
theorem eventItems_hooksLeft (map : JsonMap) (event : String)
    (nodup : (map.map Prod.fst).Nodup) :
    eventItems (hooksLeft agent map) event = eventItems (stripOurs agent map) event := by
  have distinct : ((stripOurs agent map).map Prod.fst).Nodup := by
    rw [stripOurs, map_fst_mapValues]
    exact nodup
  unfold hooksLeft
  generalize stripOurs agent map = stripped at distinct
  rw [eventItems, eventItems, get_filter distinct]
  cases found : Entries.get event stripped with
  | none => rfl
  | some value =>
      cases value with
      | array items =>
          cases items <;> simp [keepsEvent, Json.asArray, Option.filter]
      | _ => simp [keepsEvent, Json.asArray, Option.filter]

theorem get_hooksLeft_of_lone {map : JsonMap} {event : String} {value : Json}
    (nodup : (map.map Prod.fst).Nodup) (found : Entries.get event map = some value)
    (lone : value.asArray = none) : Entries.get event (hooksLeft agent map) = some value := by
  have distinct : ((stripOurs agent map).map Prod.fst).Nodup := by
    rw [stripOurs, map_fst_mapValues]
    exact nodup
  have same : stripItems agent value = value := by
    cases value <;> first | rfl | cases lone
  rw [hooksLeft, get_filter distinct, stripOurs, get_mapValues, found, Option.map_some, same]
  simp [keepsEvent, lone, Option.filter]

/-- Adding events that list nothing does not show in what is left. -/
theorem filter_ensured (map : JsonMap) (events : List String) :
    (ensured map events).filter (fun event => keepsEvent event.2) =
      map.filter fun event => keepsEvent event.2 := by
  induction events generalizing map with
  | nil => rfl
  | cons event events ih =>
      have step : ensured map (event :: events) =
          ensured (Entries.orInsert event (.array []) map) events := rfl
      rw [step, ih, Entries.orInsert]
      split
      · simp [keepsEvent, Json.asArray]
      · rfl

/-- Uninstalling after an installation leaves the hooks it would have left before. -/
theorem hooksLeft_foldlM {map next : JsonMap}
    (pushed : format.events.foldlM (pushEntry target agent format path) (stripOurs agent map) =
      .ok next) : hooksLeft agent next = hooksLeft agent map := by
  rw [hooksLeft, stripOurs_foldlM pushed, stripOurs_stripOurs, filter_ensured, hooksLeft]

end Install

end Condr
