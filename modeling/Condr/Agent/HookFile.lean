import Condr.Agent.HookInstallation
import Mathlib.Algebra.Order.BigOperators.Group.List

/-!
# The file of a configuration

What installing leaves in a file is read as installed, until it is too large to be read at all.
The file that holds a configuration is read as JSON, and what is left of it is printed back unless
the file already reads so. Without Condr's hooks in it, the file stays as it was exactly when it is
what the printer makes of its own value and nothing in it is empty of hooks.
-/

namespace Condr

open Entries

/-- The JSON parser and the printer that indents. -/
structure JsonCodec where
  parse : List UInt8 → Except String Json
  pretty : Json → List UInt8
  /-- A value that is read from its own print holds as many values. -/
  size_eq : ∀ value found, parse (pretty value ++ [10]) = .ok found → found.size = value.size
  /-- No value is read from white space. -/
  blank : ∀ bytes value, parse bytes = .ok value →
    ∃ byte ∈ bytes, byte ∉ ([9, 10, 12, 13, 32] : List UInt8)

def maxConfigBytes : ℕ := 4 * 1024 * 1024

/-- Reading a file, if it is there. White space alone is no configuration. -/
def readConfig (codec : JsonCodec) (path : String) (file : Option (List UInt8)) :
    Except String (Option JsonMap) :=
  match file with
  | none => .ok none
  | some bytes =>
      if maxConfigBytes < bytes.length then .error (Install.invalid path "larger than 4 MiB")
      else if bytes.all fun byte => byte ∈ ([9, 10, 12, 13, 32] : List UInt8) then .ok none
      else
        match codec.parse bytes with
        | .error detail => .error (Install.invalid path detail)
        | .ok (.object root) => .ok (some root)
        | .ok _ => .error (Install.invalid path "top level is not a JSON object")

/-- What replaces the file, unless it is there already. -/
def writeFile (file : Option (List UInt8)) (bytes : List UInt8) : Option (List UInt8) :=
  if file = some bytes then none else some bytes

def writeConfig (codec : JsonCodec) (file : Option (List UInt8)) (root : JsonMap) :
    Option (List UInt8) :=
  writeFile file (codec.pretty (.object root) ++ [10])

/-- What uninstalling writes, if anything. -/
def uninstall (codec : JsonCodec) (agent : AgentKind) (path : String)
    (file : Option (List UInt8)) : Except String (Option (List UInt8)) := do
  match ← readConfig codec path file with
  | none => return none
  | some root => return writeConfig codec file (uninstallMap agent root)

/-- What installing writes, if anything. A file that is not there has nothing in it. -/
def install (codec : JsonCodec) (target : HookTarget) (agent : AgentKind) (format : MapFormat)
    (path : String) (file : Option (List UInt8)) : Except String (Option (List UInt8)) := do
  let root ← readConfig codec path file
  let next ← installMap target agent format path (root.getD [])
  return writeConfig codec file next

def hooksState (codec : JsonCodec) (target : HookTarget) (agent : AgentKind) (format : MapFormat)
    (path : String) (file : Option (List UInt8)) : Except String HooksState := do
  match ← readConfig codec path file with
  | none => return .missing
  | some root => return mapState target agent format root

/-- The file after a command wrote to it, or failed. -/
def fileAfter (file : Option (List UInt8)) (written : Except String (Option (List UInt8))) :
    Option (List UInt8) :=
  match written with
  | .ok (some bytes) => some bytes
  | _ => file

theorem fileAfter_writeConfig (codec : JsonCodec) (file : Option (List UInt8)) (root : JsonMap) :
    fileAfter file (.ok (writeConfig codec file root)) =
      some (codec.pretty (.object root) ++ [10]) := by
  rw [writeConfig, writeFile]
  split_ifs with same
  · exact same
  · rfl

/-- No command reads a file that is too large. -/
theorem readConfig_of_large (codec : JsonCodec) (path : String) {bytes : List UInt8}
    (large : maxConfigBytes < bytes.length) :
    readConfig codec path (some bytes) = .error (Install.invalid path "larger than 4 MiB") := by
  simp only [readConfig]
  rw [if_pos large]

theorem readConfig_of_parse (codec : JsonCodec) (path : String) {bytes : List UInt8}
    {root : JsonMap} (small : bytes.length ≤ maxConfigBytes) (parses : codec.parse bytes = .ok (.object root)) :
    readConfig codec path (some bytes) = .ok (some root) := by
  have notBlank : ¬(bytes.all fun byte => byte ∈ ([9, 10, 12, 13, 32] : List UInt8)) = true := by
    intro blank
    rcases codec.blank bytes _ parses with ⟨byte, contained, dark⟩
    rw [List.all_eq_true] at blank
    exact dark (by simpa using blank byte contained)
  simp only [readConfig]
  rw [if_neg (Nat.not_lt_of_le small), if_neg notBlank, parses]

/-- The file after an installation, which reads as it was written: within the limit the hooks are
installed and stay so, over it no command reads the file again. -/
theorem install_file {codec : JsonCodec} {target : HookTarget} {agent : AgentKind}
    {format : MapFormat} {path : String} {file : Option (List UInt8)}
    {found : Option JsonMap} {next : JsonMap} (known : agent.mapFormat = some format)
    (read : readConfig codec path file = .ok found) (valid : ValidConfig (found.getD []))
    (installed : installMap target agent format path (found.getD []) = .ok next)
    (prints : codec.parse (codec.pretty (.object next) ++ [10]) = .ok (.object next)) :
    ∃ bytes, fileAfter file (install codec target agent format path file) = some bytes ∧
      (bytes.length ≤ maxConfigBytes →
        hooksState codec target agent format path (some bytes) = .ok .installed ∧
          install codec target agent format path (some bytes) = .ok none ∧
          ∃ left, fileAfter (some bytes) (uninstall codec agent path (some bytes)) =
            some (codec.pretty (.object left) ++ [10]) ∧
            mapState target agent format left = .missing) ∧
      (maxConfigBytes < bytes.length →
        hooksState codec target agent format path (some bytes) =
            .error (Install.invalid path "larger than 4 MiB") ∧
          install codec target agent format path (some bytes) =
            .error (Install.invalid path "larger than 4 MiB") ∧
          uninstall codec agent path (some bytes) =
            .error (Install.invalid path "larger than 4 MiB")) := by
  have written : install codec target agent format path file =
      .ok (writeConfig codec file next) := by
    rw [install, read]
    dsimp only [bind, Except.bind]
    rw [installed]
    rfl
  refine ⟨codec.pretty (.object next) ++ [10], ?_, fun small => ?_, fun large => ?_⟩
  · rw [written, fileAfter_writeConfig]
  · have read := readConfig_of_parse codec path small prints
    have later := validConfig_of_installMap valid installed
    refine ⟨?_, ?_, uninstallMap agent next, ?_, mapState_uninstallMap later⟩
    · rw [hooksState, read]
      exact congrArg Except.ok
        (mapState_installMap (AgentKind.events_ne_nil known) valid installed)
    · rw [install, read]
      dsimp only [bind, Except.bind, Option.getD]
      rw [installMap_installMap installed]
      exact congrArg Except.ok (if_pos rfl)
    · rw [uninstall, read]
      exact fileAfter_writeConfig codec _ _
  · rw [hooksState, install, uninstall, readConfig_of_large codec path large]
    exact ⟨rfl, rfl, rfl⟩

/-! ## A configuration without Condr's hooks -/

/-- No hook in it is Condr's. -/
def NoneOurs (agent : AgentKind) (root : JsonMap) : Prop :=
  ∀ event, ∀ item ∈ eventItems (hooksOf root) event, holdsOurs agent item = false

/-- No group, no event and not the map of hooks itself is empty. -/
structure NothingEmpty (root : JsonMap) : Prop where
  hooks : Entries.get "hooks" root ≠ some (.object [])
  events : ∀ event, Entries.get event (hooksOf root) ≠ some (.array [])
  groups : ∀ event, ∀ item ∈ eventItems (hooksOf root) event,
    item.arrayField "hooks" ≠ some []

theorem stripGroup_of_foreign {agent : AgentKind} {item : Json}
    (foreign : holdsOurs agent item = false) : stripGroup agent item = item := by
  cases item with
  | object fields =>
      rw [stripGroup]
      split
      · next nested found =>
          have kept : nested.filter (fun hook => !isOurs agent hook) = nested := by
            rw [List.filter_eq_self]
            intro hook contained
            simp only [holdsOurs, Json.arrayField, Json.get, found, Option.bind_some,
              Json.asArray, Option.any_some, Bool.or_eq_false_iff, List.any_eq_false] at foreign
            simpa using foreign.2 hook contained
          rw [kept, set_eq_self found]
      · rfl
  | _ => rfl

/-- A group that holds no hook is dropped, and nothing else. -/
theorem stripItems_of_foreign {agent : AgentKind} {items : List Json}
    (foreign : ∀ item ∈ items, holdsOurs agent item = false) :
    stripItems agent (.array items) =
      .array (items.filter fun item => (item.arrayField "hooks").all fun nested =>
        !nested.isEmpty) := by
  have same : items.map (stripGroup agent) = items := by
    rw [List.map_congr_left fun item contained => stripGroup_of_foreign (foreign item contained),
      List.map_id']
  rw [stripItems, same, Json.array.injEq]
  apply List.filter_congr
  intro item contained
  have own : isOurs agent item = false := by
    have apart := foreign item contained
    rw [holdsOurs, Bool.or_eq_false_iff] at apart
    exact apart.1
  rw [keepsItem, own]
  rfl

section Sizes

variable {agent : AgentKind} {map root : JsonMap}

/-- A group with a hook in it, or no group. -/
def keepsGroup (item : Json) : Bool := (item.arrayField "hooks").all fun nested => !nested.isEmpty

/-- No item of a list is Condr's. -/
def ItemsForeign (agent : AgentKind) (value : Json) : Prop :=
  ∀ items, value = .array items → ∀ item ∈ items, holdsOurs agent item = false

theorem size_stripItems_le {value : Json} (foreign : ItemsForeign agent value) :
    (stripItems agent value).size ≤ value.size := by
  cases value with
  | array items =>
      rw [stripItems_of_foreign (foreign items rfl), Json.size, Json.size, Json.sizeItems_eq,
        Json.sizeItems_eq]
      exact Nat.add_le_add_left (Lists.sum_filter_le Json.size keepsGroup items) 1
  | _ => exact Nat.le_refl _

theorem size_stripItems_lt {items : List Json} {group : Json}
    (foreign : ItemsForeign agent (.array items)) (contained : group ∈ items)
    (empty : group.arrayField "hooks" = some []) :
    (stripItems agent (.array items)).size < (Json.array items).size := by
  have refused : keepsGroup group = false := by simp [keepsGroup, empty]
  rw [stripItems_of_foreign (foreign items rfl), Json.size, Json.size, Json.sizeItems_eq,
    Json.sizeItems_eq]
  exact Nat.add_lt_add_left (Lists.sum_filter_lt contained refused (Json.size_pos group)) 1

theorem sizeFields_stripOurs (map : JsonMap) :
    Json.sizeFields (stripOurs agent map) =
      (map.map fun event => (stripItems agent event.2).size).sum := by
  rw [Json.sizeFields_eq, stripOurs, mapValues, List.map_map]
  rfl

theorem sizeFields_stripOurs_le (foreign : ∀ event ∈ map, ItemsForeign agent event.2) :
    Json.sizeFields (stripOurs agent map) ≤ Json.sizeFields map := by
  rw [sizeFields_stripOurs, Json.sizeFields_eq]
  exact List.sum_le_sum fun event contained => size_stripItems_le (foreign event contained)

theorem sizeFields_hooksLeft_le_stripOurs (map : JsonMap) :
    Json.sizeFields (hooksLeft agent map) ≤ Json.sizeFields (stripOurs agent map) := by
  rw [Json.sizeFields_eq, Json.sizeFields_eq]
  exact Lists.sum_filter_le _ _ _

/-- An event that lists nothing is dropped. -/
theorem sizeFields_hooksLeft_lt_of_event {event : String}
    (foreign : ∀ event ∈ map, ItemsForeign agent event.2) (contained : (event, .array []) ∈ map) :
    Json.sizeFields (hooksLeft agent map) < Json.sizeFields map := by
  have still : (event, Json.array []) ∈ stripOurs agent map :=
    List.mem_map.mpr ⟨_, contained, rfl⟩
  have dropped : Json.sizeFields (hooksLeft agent map) < Json.sizeFields (stripOurs agent map) := by
    rw [Json.sizeFields_eq, Json.sizeFields_eq]
    exact Lists.sum_filter_lt still rfl (Json.size_pos _)
  exact dropped.trans_le (sizeFields_stripOurs_le foreign)

/-- A group without a hook is dropped. -/
theorem sizeFields_hooksLeft_lt_of_group {event : String} {items : List Json} {group : Json}
    (foreign : ∀ event ∈ map, ItemsForeign agent event.2) (contained : (event, .array items) ∈ map)
    (listed : group ∈ items) (empty : group.arrayField "hooks" = some []) :
    Json.sizeFields (hooksLeft agent map) < Json.sizeFields map := by
  have stripped : Json.sizeFields (stripOurs agent map) < Json.sizeFields map := by
    rw [sizeFields_stripOurs, Json.sizeFields_eq]
    exact List.sum_lt_sum _ _
      (fun event contained => size_stripItems_le (foreign event contained))
      ⟨_, contained, size_stripItems_lt (foreign _ contained) listed empty⟩
  exact (sizeFields_hooksLeft_le_stripOurs map).trans_lt stripped

/-- A map of hooks that lost something, or that holds nothing, leaves a smaller configuration. -/
theorem sizeFields_uninstallMap_lt (found : Entries.get "hooks" root = some (.object map))
    (lost : Json.sizeFields (hooksLeft agent map) < Json.sizeFields map ∨ map = []) :
    Json.sizeFields (uninstallMap agent root) < Json.sizeFields root := by
  have set := Json.sizeFields_set found (.object (hooksLeft agent map))
  simp only [Json.size] at set
  rw [uninstallMap, found]
  dsimp only
  unfold dropEmptyHooks
  rcases lost with lost | rfl
  · split
    · next empty =>
        have swapped := Json.sizeFields_swapRemove empty
        omega
    · omega
  · have empty : Entries.get "hooks" (Entries.set "hooks" (.object (hooksLeft agent [])) root) =
        some (.object []) := by
      rw [get_set, if_pos rfl]
      rfl
    have swapped := Json.sizeFields_swapRemove empty
    have positive := Json.size_pos (.object [])
    have same : Json.sizeFields (hooksLeft agent []) = Json.sizeFields [] := rfl
    rw [empty]
    dsimp only
    omega

end Sizes

section Uninstall

variable {agent : AgentKind} {root : JsonMap}

theorem mem_eventItems {map : JsonMap} {event : String} {item : Json}
    (contained : item ∈ eventItems map event) :
    ∃ items, Entries.get event map = some (.array items) ∧ item ∈ items := by
  rw [eventItems] at contained
  cases found : Entries.get event map with
  | none => simp [found] at contained
  | some value =>
      cases value with
      | array items => exact ⟨items, rfl, by simpa [found, Json.asArray] using contained⟩
      | _ => simp [found, Json.asArray] at contained

theorem eventItems_of_get {map : JsonMap} {event : String} {items : List Json}
    (found : Entries.get event map = some (.array items)) : eventItems map event = items := by
  simp [eventItems, found, Json.asArray]

theorem itemsForeign_of_noneOurs (valid : ValidConfig root) (noneOurs : NoneOurs agent root) :
    ∀ event ∈ hooksOf root, ItemsForeign agent event.2 := by
  rintro ⟨native, value⟩ contained items rfl item listed
  apply noneOurs native item
  rw [eventItems_of_get (get_of_mem valid.events contained)]
  exact listed

theorem hooksOf_of_get {map : JsonMap} (found : Entries.get "hooks" root = some (.object map)) :
    hooksOf root = map := by
  simp [hooksOf, found, Json.asObject]

theorem uninstallMap_eq_self (valid : ValidConfig root) (noneOurs : NoneOurs agent root)
    (filled : NothingEmpty root) : uninstallMap agent root = root := by
  have foreign := itemsForeign_of_noneOurs valid noneOurs
  have whole : ∀ after : JsonMap, Entries.get "hooks" after ≠ some (.object []) →
      dropEmptyHooks after = after := by
    intro after some
    unfold dropEmptyHooks
    split
    · next empty => exact absurd empty some
    · rfl
  unfold uninstallMap
  split
  · next map found =>
      have events := hooksOf_of_get found
      rw [events] at foreign
      have stripped : stripOurs agent map = map := by
        rw [stripOurs, mapValues, List.map_congr_left (g := id), List.map_id]
        rintro ⟨native, value⟩ contained
        refine Prod.ext rfl ?_
        cases value with
        | array items =>
            have here : Entries.get native (hooksOf root) = some (.array items) :=
              get_of_mem valid.events (by rwa [events])
            refine (stripItems_of_foreign (foreign _ contained items rfl)).trans ?_
            rw [List.filter_eq_self.mpr]
            · rfl
            · intro item listed
              have group := filled.groups native item (by rwa [eventItems_of_get here])
              cases nested : item.arrayField "hooks" with
              | none => rfl
              | some hooks =>
                  cases hooks with
                  | nil => exact absurd nested group
                  | cons first rest => rfl
        | _ => rfl
      have left : hooksLeft agent map = map := by
        rw [hooksLeft, stripped, List.filter_eq_self]
        rintro ⟨native, value⟩ contained
        have here : Entries.get native (hooksOf root) = some value :=
          get_of_mem valid.events (by rwa [events])
        rcases value with _ | _ | _ | _ | (_ | ⟨first, rest⟩) | _ <;>
          first | rfl | exact absurd here (filled.events native)
      rw [left, set_eq_self found]
      exact whole root filled.hooks
  · exact whole root filled.hooks

theorem sizeFields_uninstallMap_of_empty (valid : ValidConfig root)
    (noneOurs : NoneOurs agent root) (empty : ¬NothingEmpty root) :
    Json.sizeFields (uninstallMap agent root) < Json.sizeFields root := by
  have foreign := itemsForeign_of_noneOurs valid noneOurs
  by_cases nothing : Entries.get "hooks" root = some (.object [])
  · exact sizeFields_uninstallMap_lt nothing (.inr rfl)
  · have object : ∀ {event : String} {value : Json},
        Entries.get event (hooksOf root) = some value →
          Entries.get "hooks" root = some (.object (hooksOf root)) := by
      intro event value found
      unfold hooksOf at found ⊢
      cases hooks : Entries.get "hooks" root with
      | none => simp [hooks] at found
      | some whole =>
          cases whole with
          | object map => rfl
          | _ => simp [hooks, Json.asObject] at found
    by_contra kept
    apply empty
    refine ⟨nothing, fun event listed => ?_, fun event item contained nested => ?_⟩
    · exact kept (sizeFields_uninstallMap_lt (object listed)
        (.inl (sizeFields_hooksLeft_lt_of_event foreign (mem_of_get listed))))
    · rcases mem_eventItems contained with ⟨items, found, listed⟩
      exact kept (sizeFields_uninstallMap_lt (object found)
        (.inl (sizeFields_hooksLeft_lt_of_group foreign (mem_of_get found) listed nested)))

/-- Uninstalling what is not installed leaves the file exactly when it is too large to be read, or
is the print of its own value and nothing in it is empty of hooks. -/
theorem uninstall_unchanged_iff (codec : JsonCodec) (path : String) {bytes : List UInt8}
    (parses : codec.parse bytes = .ok (.object root)) (valid : ValidConfig root)
    (noneOurs : NoneOurs agent root) :
    fileAfter (some bytes) (uninstall codec agent path (some bytes)) = some bytes ↔
      maxConfigBytes < bytes.length ∨
        bytes = codec.pretty (.object root) ++ [10] ∧ NothingEmpty root := by
  by_cases large : maxConfigBytes < bytes.length
  · rw [uninstall, readConfig_of_large codec path large]
    exact iff_of_true rfl (.inl large)
  · have written : uninstall codec agent path (some bytes) =
        .ok (writeConfig codec (some bytes) (uninstallMap agent root)) := by
      rw [uninstall, readConfig_of_parse codec path (Nat.le_of_not_lt large) parses]
      rfl
    rw [written, fileAfter_writeConfig]
    constructor
    · intro same
      have print := Option.some.inj same
      right
      have filled : NothingEmpty root := by
        by_contra empty
        have smaller := sizeFields_uninstallMap_of_empty valid noneOurs empty
        rw [← print] at parses
        have size := codec.size_eq _ _ parses
        simp only [Json.size] at size
        omega
      rw [uninstallMap_eq_self valid noneOurs filled] at print
      exact ⟨print.symm, filled⟩
    · rintro (tooLarge | ⟨print, filled⟩)
      · exact absurd tooLarge large
      · rw [uninstallMap_eq_self valid noneOurs filled, ← print]

end Uninstall

section Examples

/-- A configuration without hooks. -/
def modelOnly : JsonMap := [("model", .string "opus")]

def asciiBytes (text : String) : List UInt8 := text.toList.map fun char => .ofNat char.toNat

def compactText : List UInt8 := asciiBytes "\x7b\"model\":\"opus\"\x7d"

def compactPretty (value : Json) : List UInt8 :=
  if value.same (.object modelOnly) then asciiBytes "\x7b\n  \"model\": \"opus\"\n\x7d" else []

/-- Reads the one text, and prints its value. -/
def compactCodec : JsonCodec where
  parse bytes := if bytes = compactText then .ok (.object modelOnly) else .error "expected value"
  pretty := compactPretty
  size_eq := by
    intro value found parsed
    split_ifs at parsed with same
    have last := congrArg List.getLast? same
    rw [List.getLast?_concat] at last
    exact absurd last (by decide)
  blank := by
    intro bytes value parsed
    split_ifs at parsed with same
    rw [same]
    decide

theorem compactCodec_parse : compactCodec.parse compactText = .ok (.object modelOnly) := by
  simp [compactCodec]

theorem uninstall_unchanged_compact :
    fileAfter (some compactText) (uninstall compactCodec .claude "settings.json"
        (some compactText)) = some compactText ↔
      maxConfigBytes < compactText.length ∨
        compactText = compactCodec.pretty (.object modelOnly) ++ [10] ∧ NothingEmpty modelOnly :=
  uninstall_unchanged_iff compactCodec "settings.json" compactCodec_parse ⟨by decide, by decide⟩
    (by
      intro event item contained
      cases contained)

/-- A file in another format is printed anew, with nothing of Condr's in it. -/
theorem compact_rewritten :
    compactCodec.parse compactText = .ok (.object modelOnly) ∧ NoneOurs .claude modelOnly ∧
      fileAfter (some compactText) (uninstall compactCodec .claude "settings.json"
        (some compactText)) ≠ some compactText := by
  refine ⟨compactCodec_parse, ?_, by decide⟩
  intro event item contained
  cases contained

end Examples

end Condr
