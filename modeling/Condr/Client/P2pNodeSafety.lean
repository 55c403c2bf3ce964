import Condr.Client.P2pNode
import Mathlib.Data.List.Perm.Basic

/-!
# The idle release

Where every guard is of the endpoint that its dial obtained, the counter of the bound endpoint
counts its streams, and its last stream schedules a release. A release closes the endpoint exactly
where no stream of it is alive. It was used since that release was scheduled where another one
was scheduled for it since, which would close it later.
-/

namespace Condr.P2pNode

/-- The numbers in use were given. -/
structure Given (node : P2pNode) : Prop where
  bound : ∀ endpoint, node.bound = some endpoint → endpoint < node.next
  dials : ∀ dial ∈ node.dials, dial.endpoint < node.next ∧
    ∀ counter, dial.counter = some counter → counter < node.next
  streams : ∀ stream ∈ node.streams, stream.endpoint < node.next ∧ stream.counter < node.next
  releases : ∀ release ∈ node.releases, release.counter < node.next ∧
    ∀ number, node.next ≤ number → release.used number = false
  carried : ∀ number, node.next ≤ number → node.carried number = false

/-- Each release that saw the endpoint used has a later one for it. -/
def Followed (node : P2pNode) (endpoint : ℕ) : Prop :=
  ∀ front release back, node.releases = front ++ release :: back →
    release.used endpoint = true → ∃ later ∈ back, later.counter = endpoint

/-- What was made from the bound endpoint is counted on its counter, and nothing else is. -/
structure Own (node : P2pNode) (endpoint : ℕ) : Prop where
  dials : ∀ dial ∈ node.dials, ∀ counter, dial.counter = some counter →
    (dial.endpoint = endpoint ↔ counter = endpoint)
  streams : ∀ stream ∈ node.streams, (stream.endpoint = endpoint ↔ stream.counter = endpoint)
  releases : node.releases.Pairwise fun release later =>
    later.counter = endpoint → release.used endpoint = true
  followed : ¬node.Carries endpoint → node.Followed endpoint
  scheduled : node.carried endpoint = true → ¬node.Carries endpoint →
    ∃ release ∈ node.releases, release.counter = endpoint

structure Sound (node : P2pNode) : Prop where
  counts : ∀ counter, node.connections counter =
    node.streams.countP fun stream => stream.counter == counter
  given : node.Given
  used : ∀ release ∈ node.releases, ∀ stream ∈ node.streams,
    release.used stream.endpoint = true
  own : ∀ endpoint, node.bound = some endpoint → node.Own endpoint

variable {node : P2pNode}

theorem sound_init : init.Sound where
  counts := fun _ => rfl
  given := ⟨nofun, nofun, nofun, nofun, fun _ _ => rfl⟩
  used := nofun
  own := nofun

/-- A counter is at zero where no stream is counted on it. -/
theorem Sound.connections_eq_zero (sound : node.Sound) (counter : ℕ) :
    node.connections counter = 0 ↔ ∀ stream ∈ node.streams, stream.counter ≠ counter := by
  rw [sound.counts, List.countP_eq_zero]
  simp only [beq_iff_eq, ne_eq]

theorem Sound.carries_iff (sound : node.Sound) {endpoint : ℕ}
    (bound : node.bound = some endpoint) :
    node.Carries endpoint ↔ node.connections endpoint ≠ 0 := by
  rw [ne_eq, sound.connections_eq_zero]
  constructor
  · rintro ⟨stream, contained, same⟩ none
    exact none stream contained (((sound.own endpoint bound).streams stream contained).mp same)
  · intro some
    by_contra none
    apply some
    intro stream contained same
    apply none
    exact ⟨stream, contained, ((sound.own endpoint bound).streams stream contained).mpr same⟩

theorem Sound.unbind (sound : node.Sound) : ({ node with bound := none } : P2pNode).Sound where
  counts := sound.counts
  given := { sound.given with bound := nofun }
  used := sound.used
  own := nofun

/-- A new counter counts nothing. -/
theorem Sound.fresh (sound : node.Sound) (unbound : node.bound = none) : node.fresh.Sound where
  counts := by
    intro counter
    have zero : node.connections node.next = 0 := by
      rw [sound.connections_eq_zero]
      intro stream contained
      exact Nat.ne_of_lt (sound.given.streams stream contained).2
    have same : node.fresh.connections = node.connections := by
      unfold P2pNode.fresh
      rw [Function.update_eq_self_iff]
      exact zero.symm
    rw [same]
    exact sound.counts counter
  given :=
    { bound := fun endpoint bound => Nat.lt_succ_of_lt (sound.given.bound endpoint bound)
      dials := fun dial contained => ⟨Nat.lt_succ_of_lt (sound.given.dials dial contained).1,
        fun counter taken =>
          Nat.lt_succ_of_lt ((sound.given.dials dial contained).2 counter taken)⟩
      streams := fun stream contained =>
        (sound.given.streams stream contained).imp Nat.lt_succ_of_lt Nat.lt_succ_of_lt
      releases := fun release contained =>
        ⟨Nat.lt_succ_of_lt (sound.given.releases release contained).1, fun number large =>
          (sound.given.releases release contained).2 number (Nat.le_of_succ_le large)⟩
      carried := fun number large => sound.given.carried number (Nat.le_of_succ_le large) }
  used := sound.used
  own := by
    intro endpoint bound
    rw [show node.fresh.bound = none from unbound] at bound
    cases bound

/-- The endpoint that is bound newly was not used. -/
theorem Sound.endpoint (sound : node.Sound) : node.endpoint.Sound := by
  unfold P2pNode.endpoint
  cases unbound : node.bound with
  | some _ => exact sound
  | none =>
      have fresh := sound.fresh unbound
      refine ⟨fresh.counts, { fresh.given with bound := ?_ }, fresh.used, ?_⟩
      · rintro endpoint ⟨⟩
        exact Nat.lt_succ_self node.next
      · rintro endpoint ⟨⟩
        refine ⟨?_, ?_, ?_, ?_, ?_⟩
        · intro dial contained counter taken
          have given := sound.given.dials dial contained
          exact iff_of_false (Nat.ne_of_lt given.1) (Nat.ne_of_lt (given.2 counter taken))
        · intro stream contained
          have given := sound.given.streams stream contained
          exact iff_of_false (Nat.ne_of_lt given.1) (Nat.ne_of_lt given.2)
        · apply List.pairwise_of_forall_mem_list
          intro release _ later contained same
          exact absurd same (Nat.ne_of_lt (sound.given.releases later contained).1)
        · intro _ front release back parts used
          have contained : release ∈ node.releases := by
            rw [show node.releases = front ++ release :: back from parts]
            exact List.mem_append_right _ List.mem_cons_self
          rw [(sound.given.releases release contained).2 node.next (Nat.le_refl _)] at used
          cases used
        · intro carried
          change node.carried node.next = true at carried
          rw [sound.given.carried node.next (Nat.le_refl _)] at carried
          cases carried

/-- Dials may change where those that are new are sound. -/
theorem Sound.withDials (sound : node.Sound) {dials : List P2pDial}
    (given : ∀ dial ∈ dials, dial.endpoint < node.next ∧
      ∀ counter, dial.counter = some counter → counter < node.next)
    (own : ∀ endpoint, node.bound = some endpoint → ∀ dial ∈ dials, ∀ counter,
      dial.counter = some counter → (dial.endpoint = endpoint ↔ counter = endpoint)) :
    ({ node with dials := dials } : P2pNode).Sound where
  counts := sound.counts
  given := { sound.given with dials := given }
  used := sound.used
  own := fun endpoint bound => { sound.own endpoint bound with dials := own endpoint bound }

theorem bound_endpoint (node : P2pNode) : node.endpoint.bound = some node.counterOf := by
  unfold P2pNode.endpoint counterOf
  cases bound : node.bound with
  | some endpoint => exact bound
  | none => rfl

theorem sound_obtain (sound : node.Sound) : node.obtainEndpoint.Sound := by
  have bound := sound.endpoint
  have same : node.endpoint.dials = node.dials := by
    unfold P2pNode.endpoint
    cases node.bound <;> rfl
  have new := bound.given.bound node.counterOf (bound_endpoint node)
  apply bound.withDials
  · intro dial contained
    rcases List.mem_append.mp contained with old | added
    · rw [← same] at old
      exact bound.given.dials dial old
    · rw [List.mem_singleton.mp added]
      exact ⟨new, nofun⟩
  · intro endpoint isBound dial contained counter taken
    rcases List.mem_append.mp contained with old | added
    · rw [← same] at old
      exact (bound.own endpoint isBound).dials dial old counter taken
    · rw [List.mem_singleton.mp added] at taken
      cases taken

theorem sound_fail (sound : node.Sound) (index : ℕ) : (node.failDial index).Sound := by
  apply sound.withDials
  · intro dial contained
    exact sound.given.dials dial (List.mem_of_mem_eraseIdx contained)
  · intro endpoint bound dial contained
    exact (sound.own endpoint bound).dials dial (List.mem_of_mem_eraseIdx contained)

theorem takeCounter_of_bound {endpoint : ℕ} (bound : node.bound = some endpoint) (index : ℕ)
    (dial : P2pDial) : node.takeCounter index dial =
      { node with dials := node.dials.set index { dial with counter := some node.counterOf } } := by
  unfold takeCounter
  rw [bound]

theorem takeCounter_of_unbound (bound : node.bound = none) (index : ℕ) (dial : P2pDial) :
    node.takeCounter index dial = { node.fresh with
      dials := node.fresh.dials.set index { dial with counter := some node.counterOf } } := by
  unfold takeCounter
  rw [bound]
  rfl

/-- A guard of the endpoint that the dial obtained. -/
theorem sound_takeCounter (sound : node.Sound) {index : ℕ} {dial : P2pDial}
    (found : node.dials[index]? = some dial) (still : node.StillBound index) :
    (node.takeCounter index dial).Sound := by
  have obtained := (sound.given.dials dial (List.mem_of_getElem? found)).1
  cases bound : node.bound with
  | some endpoint =>
      rw [takeCounter_of_bound bound]
      have own := still dial endpoint found bound
      have counter : node.counterOf = endpoint := by rw [counterOf, bound, Option.getD_some]
      apply sound.withDials
      · intro other contained
        rcases List.mem_or_eq_of_mem_set contained with old | rfl
        · exact sound.given.dials other old
        · refine ⟨obtained, ?_⟩
          rintro taken ⟨⟩
          rw [counter]
          exact sound.given.bound endpoint bound
      · intro other isBound taken contained
        rcases List.mem_or_eq_of_mem_set contained with old | rfl
        · exact (sound.own other isBound).dials taken old
        · rintro number ⟨⟩
          rw [counter, ← own]
  | none =>
      rw [takeCounter_of_unbound bound]
      have fresh := sound.fresh bound
      apply fresh.withDials
      · intro other contained
        rcases List.mem_or_eq_of_mem_set contained with old | rfl
        · exact fresh.given.dials other old
        · refine ⟨Nat.lt_succ_of_lt obtained, ?_⟩
          rintro taken ⟨⟩
          rw [counterOf, bound]
          exact Nat.lt_succ_self node.next
      · intro endpoint isBound
        rw [show node.fresh.bound = none from bound] at isBound
        cases isBound

theorem sound_countStream (sound : node.Sound) {index endpoint counter : ℕ}
    (found : node.dials[index]? = some ⟨endpoint, some counter⟩) :
    (node.countStream index endpoint counter).Sound := by
  have inDials := List.mem_of_getElem? found
  have given := sound.given.dials _ inDials
  have taken := given.2 counter rfl
  refine ⟨?_, ⟨sound.given.bound, ?_, ?_, ?_, ?_⟩, ?_, ?_⟩
  · intro other
    change Function.update node.connections counter (node.connections counter + 1) other =
      (node.streams ++ [P2pStream.mk endpoint counter]).countP fun stream =>
        stream.counter == other
    rw [List.countP_append, ← sound.counts other, List.countP_singleton]
    by_cases same : other = counter
    · subst same
      rw [Function.update_self, beq_self_eq_true, if_pos rfl]
    · rw [Function.update_of_ne same, if_neg (by simpa using fun same' => same same'.symm)]
      rfl
  · intro dial contained
    exact sound.given.dials dial (List.mem_of_mem_eraseIdx contained)
  · intro stream contained
    rcases List.mem_append.mp contained with old | added
    · exact sound.given.streams stream old
    · rw [List.mem_singleton.mp added]
      exact ⟨given.1, taken⟩
  · intro release contained
    rcases List.mem_map.mp contained with ⟨old, inReleases, rfl⟩
    rcases sound.given.releases old inReleases with ⟨named, unused⟩
    refine ⟨named, ?_⟩
    intro number large
    have notEndpoint : (number == endpoint) = false :=
      beq_false_of_ne (Nat.ne_of_gt (Nat.lt_of_lt_of_le given.1 large))
    dsimp only
    rw [unused number large, notEndpoint]
    rfl
  · intro number large
    have notEndpoint : (number == endpoint) = false :=
      beq_false_of_ne (Nat.ne_of_gt (Nat.lt_of_lt_of_le given.1 large))
    change (node.carried number || number == endpoint) = false
    rw [sound.given.carried number large, notEndpoint]
    rfl
  · intro release contained stream alive
    rcases List.mem_map.mp contained with ⟨old, inReleases, rfl⟩
    rcases List.mem_append.mp alive with before | added
    · simp [sound.used old inReleases stream before]
    · simp [List.mem_singleton.mp added]
  · intro other bound
    have own := sound.own other bound
    have made := own.dials _ inDials counter rfl
    refine ⟨?_, ?_, ?_, ?_, ?_⟩
    · intro dial contained
      exact own.dials dial (List.mem_of_mem_eraseIdx contained)
    · intro stream contained
      rcases List.mem_append.mp contained with old | added
      · exact own.streams stream old
      · rw [List.mem_singleton.mp added]
        exact made
    · apply List.pairwise_map.mpr
      apply own.releases.imp
      intro release later sees same
      simp [sees same]
    · intro silent front release back parts used
      have apart : endpoint ≠ other := by
        intro same
        exact silent ⟨_, List.mem_append_right _ (List.mem_singleton_self _), same⟩
      have quiet : ¬node.Carries other := by
        rintro ⟨stream, contained, same⟩
        exact silent ⟨stream, List.mem_append_left _ contained, same⟩
      rcases List.map_eq_append_iff.mp parts with ⟨before, after, split, -, afterParts⟩
      rcases List.map_eq_cons_iff.mp afterParts with ⟨old, rest, rfl, rfl, rfl⟩
      have seen : old.used other = true := by
        simpa [beq_false_of_ne apart.symm] using used
      rcases own.followed quiet before old rest split seen with ⟨later, contained, same⟩
      exact ⟨_, List.mem_map_of_mem contained, same⟩
    · intro carried silent
      have apart : endpoint ≠ other := by
        intro same
        exact silent ⟨_, List.mem_append_right _ (List.mem_singleton_self _), same⟩
      have before : node.carried other = true := by
        change (node.carried other || other == endpoint) = true at carried
        rwa [beq_false_of_ne apart.symm, Bool.or_false] at carried
      have quiet : ¬node.Carries other := by
        rintro ⟨stream, contained, same⟩
        exact silent ⟨stream, List.mem_append_left _ contained, same⟩
      rcases own.scheduled before quiet with ⟨release, inReleases, same⟩
      exact ⟨_, List.mem_map_of_mem inReleases, same⟩

theorem countP_eraseIdx {index : ℕ} {stream : P2pStream}
    (found : node.streams[index]? = some stream) (counter : ℕ) :
    node.streams.countP (fun stream => stream.counter == counter) =
      (node.streams.eraseIdx index).countP (fun stream => stream.counter == counter) +
        if stream.counter = counter then 1 else 0 := by
  rcases List.getElem?_eq_some_iff.mp found with ⟨inside, rfl⟩
  rw [← List.Perm.countP_eq _ (List.getElem_cons_eraseIdx_perm inside), List.countP_cons]
  simp only [beq_iff_eq]

/-- The release of the guard that is dropped. -/
def scheduledRelease (node : P2pNode) (index : ℕ) (stream : P2pStream) : P2pRelease where
  counter := stream.counter
  used := fun endpoint =>
    (node.streams.eraseIdx index).any fun stream => stream.endpoint == endpoint

/-- The guard of the last stream that is counted schedules a release, behind all others. -/
theorem releases_dropStream (node : P2pNode) (index : ℕ) (stream : P2pStream) :
    node.connections stream.counter = 1 ∧ (node.dropStream index stream).releases =
        node.releases ++ [node.scheduledRelease index stream] ∨
      node.connections stream.counter ≠ 1 ∧
        (node.dropStream index stream).releases = node.releases := by
  by_cases last : node.connections stream.counter = 1
  · exact .inl ⟨last, if_pos last⟩
  · exact .inr ⟨last, if_neg last⟩

theorem mem_releases {index : ℕ} {stream : P2pStream} {release : P2pRelease}
    (contained : release ∈ (node.dropStream index stream).releases) :
    release ∈ node.releases ∨ release = node.scheduledRelease index stream := by
  rcases releases_dropStream node index stream with ⟨-, releases⟩ | ⟨-, releases⟩
  · rw [releases] at contained
    exact (List.mem_append.mp contained).imp_right List.mem_singleton.mp
  · rw [releases] at contained
    exact .inl contained

section Drop

variable {index endpoint : ℕ} {stream : P2pStream}

theorem counts_dropStream (sound : node.Sound) (found : node.streams[index]? = some stream)
    (counter : ℕ) : (node.dropStream index stream).connections counter =
      (node.streams.eraseIdx index).countP fun stream => stream.counter == counter := by
  change Function.update node.connections stream.counter
    (node.connections stream.counter - 1) counter = _
  have before := countP_eraseIdx found counter
  by_cases same : counter = stream.counter
  · subst same
    rw [Function.update_self, sound.counts, before, if_pos rfl, Nat.add_sub_cancel]
  · rw [Function.update_of_ne same, sound.counts, before, if_neg fun same' => same same'.symm,
      Nat.add_zero]

/-- Where the endpoint loses its last stream, a release for it is scheduled. -/
theorem schedules_of_silent (sound : node.Sound) (found : node.streams[index]? = some stream)
    (bound : node.bound = some endpoint) (carries : node.Carries endpoint)
    (silent : ¬(node.dropStream index stream).Carries endpoint) :
    stream.counter = endpoint ∧ node.connections stream.counter = 1 := by
  have own := sound.own endpoint bound
  have only : ∀ other ∈ node.streams.eraseIdx index, other.endpoint ≠ endpoint :=
    fun other left same => silent ⟨other, left, same⟩
  have noneLeft : (node.streams.eraseIdx index).countP
      (fun other => other.counter == endpoint) = 0 := by
    rw [List.countP_eq_zero]
    intro other left same
    have made := own.streams other (List.mem_of_mem_eraseIdx left)
    exact only other left (made.mpr (beq_iff_eq.mp same))
  have positive := (sound.carries_iff bound).mp carries
  have split := countP_eraseIdx found endpoint
  rw [← sound.counts, noneLeft, Nat.zero_add] at split
  split_ifs at split with same
  · exact ⟨same, same ▸ split⟩
  · exact absurd split positive

/-- The releases still follow each other for the bound endpoint. -/
theorem followed_dropStream (sound : node.Sound) (found : node.streams[index]? = some stream)
    (bound : node.bound = some endpoint)
    (silent : ¬(node.dropStream index stream).Carries endpoint) :
    (node.dropStream index stream).Followed endpoint := by
  have own := sound.own endpoint bound
  intro front release back parts used
  rcases releases_dropStream node index stream with ⟨last, releases⟩ | ⟨more, releases⟩
  · rw [releases] at parts
    rcases List.eq_nil_or_concat back with rfl | ⟨rest, final, rfl⟩
    · -- the new release saw the streams that are left, and none is of the endpoint
      rcases List.append_inj' parts rfl with ⟨-, same⟩
      cases same
      rcases List.any_eq_true.mp used with ⟨other, left, same⟩
      exact absurd ⟨other, left, beq_iff_eq.mp same⟩ silent
    · rw [List.concat_eq_append] at parts ⊢
      rw [← List.cons_append, ← List.append_assoc] at parts
      rcases List.append_inj' parts rfl with ⟨before, same⟩
      cases same
      by_cases carries : node.Carries endpoint
      · have counter := (schedules_of_silent sound found bound carries silent).1
        exact ⟨_, List.mem_append_right _ (List.mem_singleton_self _), counter⟩
      · rcases own.followed carries front release rest before used with ⟨later, contained, same⟩
        exact ⟨later, List.mem_append_left _ contained, same⟩
  · rw [releases] at parts
    have quiet : ¬node.Carries endpoint := fun carries =>
      more (schedules_of_silent sound found bound carries silent).2
    exact own.followed quiet front release back parts used

theorem sound_dropStream (sound : node.Sound) (found : node.streams[index]? = some stream) :
    (node.dropStream index stream).Sound := by
  have inStreams := List.mem_of_getElem? found
  have kept : ∀ other ∈ node.streams.eraseIdx index, other ∈ node.streams :=
    fun other => List.mem_of_mem_eraseIdx
  refine ⟨counts_dropStream sound found,
    ⟨sound.given.bound, sound.given.dials, ?_, ?_, sound.given.carried⟩, ?_, ?_⟩
  · intro other inside
    exact sound.given.streams other (kept other inside)
  · intro release inside
    rcases mem_releases inside with old | rfl
    · exact sound.given.releases release old
    · refine ⟨(sound.given.streams stream inStreams).2, ?_⟩
      intro number large
      apply List.any_eq_false.mpr
      intro other left
      have given := (sound.given.streams other (kept other left)).1
      simpa using Nat.ne_of_lt (Nat.lt_of_lt_of_le given large)
  · intro release inside other left
    rcases mem_releases inside with old | rfl
    · exact sound.used release old other (kept other left)
    · exact List.any_eq_true.mpr ⟨other, left, beq_self_eq_true _⟩
  · intro endpoint bound
    have own := sound.own endpoint bound
    refine ⟨own.dials, fun other left => own.streams other (kept other left), ?_,
      followed_dropStream sound found bound, ?_⟩
    · rcases releases_dropStream node index stream with ⟨-, releases⟩ | ⟨-, releases⟩
      · rw [releases, List.pairwise_append]
        refine ⟨own.releases, List.pairwise_singleton _ _, ?_⟩
        intro release old new isNew same
        rw [List.mem_singleton.mp isNew] at same
        -- the stream was alive, and is one of the endpoint
        have made := (own.streams stream inStreams).mpr same
        rw [← made]
        exact sound.used release old stream inStreams
      · rw [releases]
        exact own.releases
    · intro carried silent
      by_cases before : node.Carries endpoint
      · rcases schedules_of_silent sound found bound before silent with ⟨counter, one⟩
        rcases releases_dropStream node index stream with ⟨-, releases⟩ | ⟨more, -⟩
        · rw [releases]
          exact ⟨_, List.mem_append_right _ (List.mem_singleton_self _), counter⟩
        · exact absurd one more
      · rcases own.scheduled carried before with ⟨release, inReleases, same⟩
        refine ⟨release, ?_, same⟩
        rcases releases_dropStream node index stream with ⟨-, releases⟩ | ⟨-, releases⟩
        · rw [releases]
          exact List.mem_append_left _ inReleases
        · rwa [releases]

end Drop

theorem sound_releaseIfIdle (sound : node.Sound) (index : ℕ) :
    (node.releaseIfIdle index).Sound := by
  have kept : ∀ other ∈ node.releases.eraseIdx index, other ∈ node.releases :=
    fun other => List.mem_of_mem_eraseIdx
  refine ⟨sound.counts, ⟨?_, sound.given.dials, sound.given.streams, ?_, sound.given.carried⟩,
    fun release contained => sound.used release (kept release contained), ?_⟩
  · intro endpoint bound
    exact sound.given.bound endpoint (Option.filter_eq_some_iff.mp bound).1
  · intro release contained
    exact sound.given.releases release (kept release contained)
  · intro endpoint bound
    rcases Option.filter_eq_some_iff.mp bound with ⟨isBound, counted⟩
    have own := sound.own endpoint isBound
    -- an endpoint that stays bound has a stream
    have carries : node.Carries endpoint := (sound.carries_iff isBound).mpr (by simpa using counted)
    exact ⟨own.dials, own.streams, own.releases.sublist (List.eraseIdx_sublist _ _),
      fun silent => absurd carries silent, fun _ silent => absurd carries silent⟩

theorem Sound.perform (sound : node.Sound) {action : P2pAction} {next : P2pNode}
    (performs : node.perform action = some next) (careful : node.Careful action) : next.Sound := by
  cases action with
  | obtain =>
      rcases Option.some.inj performs with rfl
      exact sound_obtain sound
  | fail index =>
      unfold P2pNode.perform at performs
      dsimp only at performs
      split at performs
      · rcases Option.some.inj performs with rfl
        exact sound_fail sound index
      · cases performs
  | takeCounter index =>
      unfold P2pNode.perform at performs
      dsimp only at performs
      split at performs
      · next endpoint found =>
          rcases Option.some.inj performs with rfl
          exact sound_takeCounter sound found careful
      · cases performs
  | count index =>
      unfold P2pNode.perform at performs
      dsimp only at performs
      split at performs
      · next endpoint counter found =>
          rcases Option.some.inj performs with rfl
          exact sound_countStream sound found
      · cases performs
  | drop index =>
      rcases Option.map_eq_some_iff.mp performs with ⟨stream, found, rfl⟩
      exact sound_dropStream sound found
  | release index =>
      rcases Option.map_eq_some_iff.mp performs with ⟨release, found, rfl⟩
      exact sound_releaseIfIdle sound index
  | close =>
      rcases Option.some.inj performs with rfl
      exact sound.unbind

theorem Sound.of_reachable (reached : carefulP2pSystem.Reachable node) : node.Sound := by
  apply reached.invariant Sound
  · rintro state rfl
    exact sound_init
  · rintro state action next sound ⟨performs, careful⟩
    exact sound.perform performs careful

/-- A release leaves the endpoint, or closes it where no stream of it is alive. -/
theorem release_effect (sound : node.Sound) {index endpoint : ℕ} {release : P2pRelease}
    (scheduled : node.releases[index]? = some release) (bound : node.bound = some endpoint) :
    ∃ next, node.perform (.release index) = some next ∧
      (node.Carries endpoint ∧ next.bound = some endpoint ∨
        ¬node.Carries endpoint ∧ next.bound = none) := by
  refine ⟨node.releaseIfIdle index, by rw [P2pNode.perform, scheduled]; rfl, ?_⟩
  rw [sound.carries_iff bound, releaseIfIdle, bound, Option.filter_some]
  by_cases idle : node.connections endpoint = 0
  · simp [idle]
  · simp [idle]

/-- An idle endpoint was used since a release was scheduled where a later one is for it. -/
theorem Sound.used_iff (sound : node.Sound) {index endpoint : ℕ} {release : P2pRelease}
    (scheduled : node.releases[index]? = some release) (bound : node.bound = some endpoint)
    (silent : ¬node.Carries endpoint) :
    release.used endpoint = false ↔ node.Latest index endpoint := by
  have own := sound.own endpoint bound
  rcases List.getElem?_eq_some_iff.mp scheduled with ⟨inside, rfl⟩
  have parts : node.releases = node.releases.take index ++
      node.releases[index] :: node.releases.drop (index + 1) := by
    rw [List.getElem_cons_drop, List.take_append_drop]
  constructor
  · intro unused later contained same
    have pairs := own.releases
    rw [parts, List.pairwise_append, List.pairwise_cons] at pairs
    rw [pairs.2.1.1 later contained same] at unused
    cases unused
  · intro latest
    by_contra used
    rcases own.followed silent _ _ _ parts (by simpa using used) with ⟨later, contained, same⟩
    exact latest later contained same

/-- Where every guard is of the endpoint that its dial obtained, an endpoint that stays bound after
its streams has its release, and a release closes the endpoint exactly where no stream of it is
alive. What it closes is unused exactly where no dial that obtained it is in progress and no later
release is for it. -/
theorem idle_release_iff (node : P2pNode) (reached : carefulP2pSystem.Reachable node) :
    node.Scheduled ∧
      ∀ index release endpoint, node.releases[index]? = some release →
        node.bound = some endpoint →
        (node.Closes index endpoint ↔ ¬node.Carries endpoint) ∧
        (node.Closes index endpoint →
          (node.Unused release endpoint ↔
            ¬node.Dialled endpoint ∧ node.Latest index endpoint)) := by
  have sound := Sound.of_reachable reached
  refine ⟨?_, ?_⟩
  · intro endpoint bound carried silent _
    exact (sound.own endpoint bound).scheduled carried silent
  · intro index release endpoint scheduled bound
    have closes : node.Closes index endpoint ↔ ¬node.Carries endpoint := by
      rcases release_effect sound scheduled bound with ⟨next, performs, carries | silent⟩
      · refine iff_of_false ?_ (fun none => none carries.1)
        rintro ⟨-, other, same, closed⟩
        cases Option.some.inj (performs.symm.trans same)
        rw [carries.2] at closed
        cases closed
      · exact iff_of_true ⟨bound, next, performs, silent.2⟩ silent.1
    refine ⟨closes, ?_⟩
    intro closed
    have silent := closes.mp closed
    rw [Unused, sound.used_iff scheduled bound silent]
    exact ⟨fun unused => ⟨unused.1, unused.2.2⟩, fun free => ⟨free.1, silent, free.2⟩⟩

theorem reachable_of_actions {last : P2pNode} {actions : List P2pAction}
    (runs : Transition.System.runLabels perform init actions = some last) :
    p2pSystem.Reachable last := by
  have started : p2pSystem.Reachable init := .start rfl
  exact started.of_runLabels (fun _ _ _ performs => performs) runs

/-- A dial makes a stream, which is dropped. -/
def dialOnce : List P2pAction := [.obtain, .takeCounter 0, .count 0, .drop 0]

/-- A release that runs with nothing else going on closes the endpoint, unused. -/
theorem idle_release_iff_once :
    ∃ node, ∃ release ∈ node.releases, carefulP2pSystem.Reachable node ∧ node.Closes 0 0 ∧
      node.Scheduled ∧ node.Unused release 0 := by
  have started : carefulP2pSystem.Reachable init := .start rfl
  have obtained := started.next
    (show carefulP2pSystem.step _ .obtain _ from ⟨rfl, trivial⟩)
  have taken := obtained.next
    (show carefulP2pSystem.step _ (.takeCounter 0) _ from ⟨rfl, by
      rintro dial endpoint ⟨⟩ ⟨⟩
      rfl⟩)
  have counted := taken.next (show carefulP2pSystem.step _ (.count 0) _ from ⟨rfl, trivial⟩)
  have dropped := counted.next (show carefulP2pSystem.step _ (.drop 0) _ from ⟨rfl, trivial⟩)
  have settled := idle_release_iff _ dropped
  have closes := settled.2 0 _ 0 rfl rfl
  have closed := closes.1.mpr (by
    rintro ⟨stream, contained, -⟩
    cases contained)
  refine ⟨_, _, List.mem_singleton_self _, dropped, closed, settled.1, ?_⟩
  apply (closes.2 closed).mpr
  refine ⟨?_, ?_⟩
  · rintro ⟨dial, contained, -⟩
    cases contained
  · intro later contained
    cases contained

/-- A release of an earlier stream runs while another dial connects. -/
theorem dialled_endpoint_released :
    ¬∀ node, p2pSystem.Reachable node → node.Scheduled ∧ node.ClosesUnused := by
  intro unused
  rcases unused _ (reachable_of_actions
    (show Transition.System.runLabels perform init (dialOnce ++ [.obtain]) = some _ from rfl))
    with ⟨-, closes⟩
  rcases closes 0 _ 0 rfl ⟨rfl, _, rfl, rfl⟩ with ⟨free, -⟩
  exact free ⟨_, List.mem_singleton_self _, rfl⟩

end Condr.P2pNode
