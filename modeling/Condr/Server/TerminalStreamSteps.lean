import Condr.Client.VisualSlotEffect
import Condr.Server.TerminalStream

/-!
# What a frame leaves at the Client

A render takes the Client from its baseline to the latest view, whether the frame is the delta
that the terminal made, one computed from both views, or the whole view. The views here are within
the limits of a frame, so that the wire takes no link off.
-/

namespace Condr.TerminalStream

open Budget (Within)

variable {latest next : LatestTerminalView} {baseline : Option View} {frame : Frame} {view : View}

/-! ## Latest views -/

theorem settleView_of_within (within : Within hyperlinkLimits (linkTexts view.cells)) :
    settleView ∅ view = view := by
  apply settleView_eq_self.mpr
  apply settleCells_of_within
  rwa [Finset.empty_union]

theorem within_settleView (view : View) :
    Within hyperlinkLimits (linkTexts (settleView ∅ view).cells) := by
  have kept := @within_settleCells ∅ view.cells Budget.within_empty
  rwa [Finset.empty_union] at kept

/-- A baseline is the latest view or older, and at the base of the terminal's delta it is the view
that the delta was made for. -/
structure Follows (base : View) (latest : LatestTerminalView) : Prop where
  older : base.revision < latest.view.revision ∨ base = latest.view
  producer : ∀ update, latest.producerFrame = some update →
    base.revision = update.baseRevision → base.applyFrame (.delta update) = .ok latest.view

theorem follows_self (fits : latest.Fits) : Follows latest.view latest where
  older := .inr rfl
  producer := by
    intro update listed atBase
    have ahead := fits.ahead update listed
    omega

theorem fits_settled (view : View) :
    LatestTerminalView.Fits { view := settleView ∅ view, producerFrame := none } where
  within := within_settleView view
  ahead := by
    intro update listed
    cases listed

/-- The links that a delta leaves are those of the view. -/
theorem within_untouched {update : TerminalViewDelta String}
    (valid : view.validateDelta update = .ok ())
    (within : Within hyperlinkLimits (linkTexts view.cells)) :
    Within hyperlinkLimits (untouched view update) := by
  apply within.mono
  have split := linksOf_drop (validateRuns_of_validateDelta valid)
  rw [List.drop_zero] at split
  rw [untouched, linkTexts_eq, linkTexts_eq, split, Multiset.toFinset_add]
  exact Finset.subset_union_right

/-- A delta that was settled leaves a view within the limits. -/
theorem within_settled {update : TerminalViewDelta String} {result : View}
    (within : Within hyperlinkLimits (linkTexts view.cells))
    (applied : view.applyFrame (.delta (settleDelta (untouched view update) update)) = .ok result) :
    Within hyperlinkLimits (linkTexts result.cells) := by
  rcases applyFrame_delta_eq_ok.mp applied with ⟨valid, rfl⟩
  have plain : view.validateDelta update = .ok () :=
    (Holder.validateFrame_settle view (.delta update)).symm.trans valid
  have same : untouched view (settleDelta (untouched view update) update) =
      untouched view update := congrArg linkTexts (outside_congr shape_settleDelta)
  rw [linkTexts_applyValidatedDelta valid, same, cells_settleDelta]
  exact within_settleCells (within_untouched plain within)

theorem revisions_of_validateDelta {update : TerminalViewDelta String}
    (valid : view.validateDelta update = .ok ()) :
    view.revision = update.baseRevision ∧ update.baseRevision < update.revision := by
  unfold TerminalView.validateDelta at valid
  split_ifs at valid with old apart
  exact ⟨not_not.mp apart, Nat.lt_of_not_le old⟩

/-- A published delta leads from the latest view to the next. -/
theorem publish_delta {update : TerminalViewDelta String} (fits : latest.Fits)
    (published : publishTerminal (some latest) (.delta update) = some next) :
    next.Fits ∧ ∃ settled, next.producerFrame = some settled ∧
      settled.baseRevision = latest.view.revision ∧
      latest.view.revision < next.view.revision ∧
        latest.view.applyFrame (.delta settled) = .ok next.view := by
  simp only [publishTerminal] at published
  cases applied : latest.view.applyFrame
      (.delta (settleDelta (untouched latest.view update) update)) with
  | error error =>
      rw [applied] at published
      cases published
  | ok view =>
      rw [applied] at published
      cases published
      rcases applyFrame_delta_eq_ok.mp applied with ⟨valid, rfl⟩
      rcases revisions_of_validateDelta valid with ⟨base, later⟩
      refine ⟨⟨within_settled fits.within applied, ?_⟩, _, rfl, base.symm, base ▸ later, applied⟩
      intro given listed
      cases listed
      exact later

/-- What a publication keeps of a baseline, where a whole view comes later than the one before. -/
theorem Follows.publish {base : View} (follows : Follows base latest) (fits : latest.Fits)
    (published : publishTerminal (some latest) frame = some next)
    (later : ∀ view, frame = .full view →
      latest.view.revision < view.revision ∨ settleView ∅ view = latest.view) :
    Follows base next := by
  cases frame with
  | full view =>
      cases published
      constructor
      · rcases later view rfl with after | same
        · rcases follows.older with older | rfl
          · exact .inl (older.trans after)
          · exact .inl after
        · rw [same]
          exact follows.older
      · intro update listed
        cases listed
  | delta update =>
      rcases publish_delta fits published with ⟨-, settled, producer, at_base, after, applied⟩
      constructor
      · rcases follows.older with older | rfl
        · exact .inl (older.trans after)
        · exact .inl after
      · intro given listed atGiven
        rw [producer] at listed
        cases listed
        rcases follows.older with older | rfl
        · omega
        · exact applied

theorem fits_publish (fits : latest.Fits)
    (published : publishTerminal (some latest) frame = some next) : next.Fits := by
  cases frame with
  | full view =>
      cases published
      exact fits_settled view
  | delta update => exact (publish_delta fits published).1

/-! ## Frames of a render -/

theorem receive_full (baseline : Option View) (view : View) :
    receive baseline (.full view) = some (settleView ∅ view) := by
  cases baseline <;> rfl

/-- A frame that is sent leaves the latest view at a Client that has the baseline, and a whole view
does at any. -/
structure Sends (baseline : Option View) (latest : LatestTerminalView) (frame : Frame)
    (left : View) : Prop where
  leaves : left = latest.view
  whole : isFull frame = true ∨ baseline.isSome = true
  received : ∀ held, isFull frame = true ∨ held = baseline → receive held frame = some left

/-- The delta from a baseline, as the wire carries it. -/
theorem sends_delta {base : View} {update : TerminalViewDelta String} (fits : latest.Fits)
    (applied : base.applyFrame (.delta update) = .ok latest.view) :
    settleFrame ∅ (.delta update) = .delta update ∧
      Sends (some base) latest (.delta update) latest.view := by
  rcases applyFrame_delta_eq_ok.mp applied with ⟨valid, same⟩
  have brings : Within hyperlinkLimits (linkTexts update.cells) := by
    apply fits.within.mono
    rw [same, linkTexts_applyValidatedDelta valid]
    exact Finset.subset_union_right
  refine ⟨settleFrame_of_within brings, rfl, .inr rfl, ?_⟩
  · rintro held (whole | rfl)
    · cases whole
    · rw [receive, Holder.settle_of_within applied fits.within, applied]
      rfl

theorem sends_full (fits : latest.Fits) (baseline : Option View) :
    settleFrame ∅ (.full latest.view) = .full latest.view ∧
      Sends baseline latest (.full latest.view) latest.view := by
  refine ⟨?_, rfl, .inl rfl, ?_⟩
  · rw [settleFrame, settleView_of_within fits.within]
  · intro held _
    rw [receive_full, settleView_of_within fits.within]

theorem project_self {left : View} {sent : Frame} (same : settleFrame ∅ frame = frame)
    (projected : project baseline latest frame = some (sent, left)) :
    sent = frame ∧ left = latest.view := by
  simp only [project, same, if_true, Option.some.injEq, Prod.mk.injEq] at projected
  exact ⟨projected.1.symm, projected.2.symm⟩

/-- The frame of a Pane is the whole view, a delta that applies to its baseline, or nothing where
the content is there already. -/
theorem paneFrame_cases {sent : Option Frame} (follows : ∀ base ∈ baseline, Follows base latest)
    (answers : paneFrame baseline latest = some sent) :
    (sent = none ∧ ∃ base ∈ baseline, base.content = latest.view.content) ∨
      sent = some (.full latest.view) ∨
        ∃ base ∈ baseline, ∃ update, sent = some (.delta update) ∧
          base.applyFrame (.delta update) = .ok latest.view := by
  have computed : TerminalView.frameFrom baseline latest.view = some sent →
      (sent = none ∧ ∃ base ∈ baseline, base.content = latest.view.content) ∨
      sent = some (.full latest.view) ∨
        ∃ base ∈ baseline, ∃ update, sent = some (.delta update) ∧
          base.applyFrame (.delta update) = .ok latest.view := by
    intro answers
    cases baseline with
    | none =>
        cases answers
        exact .inr (.inl rfl)
    | some base =>
        have leads := frame_from_leads base latest.view
        cases sent with
        | none =>
            refine .inl ⟨rfl, base, rfl, ?_⟩
            exact (congrArg TerminalView.content (leads.2.1 answers)).symm
        | some frame =>
            cases frame with
            | full view =>
                have applied := (leads.1 _ answers).1
                cases applied
                exact .inr (.inl rfl)
            | delta update =>
                exact .inr (.inr ⟨base, rfl, update, rfl, (leads.1 _ answers).1⟩)
  unfold paneFrame at answers
  split at answers
  next base update listed =>
    split_ifs at answers with atBase
    · cases answers
      exact .inr (.inr ⟨base, rfl, update, rfl, (follows base rfl).producer update listed atBase⟩)
    · exact computed answers
  · exact computed answers

/-- What a Pane is sent takes the Client to the latest view; where nothing is sent, the content is
there. -/
theorem renderPane_spec {sent : Option (Frame × View)} (fits : latest.Fits)
    (follows : ∀ base ∈ baseline, Follows base latest)
    (answers : renderPane baseline latest = some sent) :
    (sent = none ∧ ∃ base ∈ baseline, base.content = latest.view.content) ∨
      ∃ frame left, sent = some (frame, left) ∧ Sends baseline latest frame left := by
  unfold renderPane at answers
  split_ifs at answers with old
  · cases answers
    cases baseline with
    | none => cases old
    | some base =>
        refine .inl ⟨rfl, base, rfl, ?_⟩
        rcases (follows base rfl).older with older | same
        · simp only [Option.any_some, decide_eq_true_eq] at old
          omega
        · rw [same]
  · cases answered : paneFrame baseline latest with
    | none =>
        rw [answered] at answers
        cases answers
    | some made =>
        rw [answered] at answers
        rcases paneFrame_cases follows answered with ⟨rfl, base⟩ | rfl | delta
        · cases answers
          exact .inl ⟨rfl, base⟩
        · rcases sends_full fits baseline with ⟨same, sends⟩
          rcases Option.map_eq_some_iff.mp answers with ⟨⟨frame, left⟩, projected, rfl⟩
          rcases project_self same projected with ⟨rfl, rfl⟩
          exact .inr ⟨_, _, rfl, sends⟩
        · rcases delta with ⟨base, is_base, update, rfl, applied⟩
          rcases sends_delta fits applied with ⟨same, sends⟩
          rcases Option.map_eq_some_iff.mp answers with ⟨⟨frame, left⟩, projected, rfl⟩
          rcases project_self same projected with ⟨rfl, rfl⟩
          cases is_base
          exact .inr ⟨_, _, rfl, sends⟩

/-! ## A Pane at the Client -/

/-- A message at a Client that may have limited its frames, and may watch the Pane. -/
def takes (limited watching : Bool) (held : Option View) : PaneMessage → Option (Option View)
  | .reset view => some (if watching then view.map (settleView ∅) else none)
  | .frame frame =>
      if limited && !(watching && (held.isSome || isFull frame)) then some held
      else (receive held frame).map some

/-- What the Client holds beside what one holds that takes everything. -/
structure Alike (limited watching : Bool) (held heard : Option View) : Prop where
  whole : limited = false → watching = true
  same : held = heard ∨ limited = true ∧ held = none
  unwatched : watching = false → held = none

section Client

variable {limited watching : Bool} {held heard next : Option View} {message : PaneMessage}

theorem receive_of_isFull {frame : Frame} (full : isFull frame = true) (held other : Option View) :
    receive held frame = receive other frame := by
  cases frame with
  | full view => rw [receive_full, receive_full]
  | delta update => cases full

theorem receive_delta_none {frame : Frame} (delta : isFull frame = false) :
    receive none frame = none := by
  cases frame with
  | full view => cases delta
  | delta update => rfl

/-- A message that applies for one that takes everything applies at the Client. -/
theorem Alike.takes (alike : Alike limited watching held heard)
    (hears : hear heard message = some next) :
    ∃ mine, takes limited watching held message = some mine ∧ Alike limited watching mine next := by
  cases message with
  | reset view =>
      cases hears
      refine ⟨_, rfl, alike.whole, ?_, ?_⟩
      · cases watching with
        | true => exact .inl rfl
        | false =>
            cases limited with
            | true => exact .inr ⟨rfl, rfl⟩
            | false => cases alike.whole rfl
      · intro unwatched
        rw [unwatched]
        rfl
  | frame frame =>
      rcases Option.map_eq_some_iff.mp hears with ⟨view, received, rfl⟩
      simp only [TerminalStream.takes]
      by_cases ignored : (limited && !(watching && (held.isSome || isFull frame))) = true
      · rw [if_pos ignored]
        simp only [Bool.and_eq_true, Bool.not_eq_true', Bool.and_eq_false_imp,
          Bool.or_eq_false_iff] at ignored
        have nothing : held = none := by
          cases watching with
          | false => exact alike.unwatched rfl
          | true => exact Option.not_isSome_iff_eq_none.mp (by simp [(ignored.2 rfl).1])
        exact ⟨held, rfl, alike.whole, .inr ⟨ignored.1, nothing⟩, alike.unwatched⟩
      · rw [if_neg ignored]
        have same : receive held frame = receive heard frame := by
          rcases alike.same with same | ⟨limits, nothing⟩
          · rw [same]
          · cases full : isFull frame with
            | true => exact receive_of_isFull full held heard
            | false => simp [limits, nothing, full] at ignored
        rw [same, received]
        refine ⟨some view, rfl, alike.whole, .inl rfl, ?_⟩
        intro unwatched
        cases limits : limited with
        | false => cases (alike.whole limits).symm.trans unwatched
        | true => simp [limits, unwatched] at ignored

theorem Alike.foldlM_takes {messages : List PaneMessage} (alike : Alike limited watching held heard)
    (hears : messages.foldlM hear heard = some next) :
    ∃ mine, messages.foldlM (TerminalStream.takes limited watching) held = some mine ∧
      Alike limited watching mine next := by
  induction messages generalizing held heard with
  | nil =>
      cases hears
      exact ⟨held, rfl, alike⟩
  | cons message messages induction =>
      rw [List.foldlM_cons] at hears
      rcases Option.bind_eq_some_iff.mp hears with ⟨middle, first, rest⟩
      rcases alike.takes first with ⟨mine, taken, alike⟩
      rcases induction alike rest with ⟨last, later, alike⟩
      refine ⟨last, ?_, alike⟩
      rw [List.foldlM_cons, taken]
      exact later

/-- A Client that watches and holds what was heard takes everything. -/
theorem takes_eq_hear (hears : hear heard message = some next) :
    takes limited true heard message = some next := by
  cases message with
  | reset view => exact hears
  | frame frame =>
      simp only [TerminalStream.takes]
      split_ifs with ignored
      · simp only [Bool.true_and, Bool.and_eq_true, Bool.not_eq_true', Bool.or_eq_false_iff]
          at ignored
        have nothing : heard = none := Option.not_isSome_iff_eq_none.mp (by simp [ignored.2.1])
        rw [hear, nothing, receive_delta_none ignored.2.2] at hears
        cases hears
      · exact hears

theorem foldlM_takes_eq_hear {messages : List PaneMessage}
    (hears : messages.foldlM hear heard = some next) :
    messages.foldlM (takes limited true) heard = some next := by
  induction messages generalizing heard with
  | nil => exact hears
  | cons message messages induction =>
      rw [List.foldlM_cons] at hears ⊢
      rcases Option.bind_eq_some_iff.mp hears with ⟨middle, first, rest⟩
      rw [takes_eq_hear first]
      exact induction rest

/-- What a message that every Pane of it can take does at the Client. -/
theorem Client.apply_spec (client : Client) (message : Message)
    (fine : ∀ pane part, forPane pane message = some part →
      ∃ mine, takes client.watched.isSome (watches client.watched pane) (client.terminals pane) part =
        some mine) :
    (client.apply message).gap = client.gap ∧ (client.apply message).watched = client.watched ∧
      ∀ pane, (client.apply message).terminals pane =
        match forPane pane message with
        | none => client.terminals pane
        | some part => (takes client.watched.isSome (watches client.watched pane)
            (client.terminals pane) part).getD none := by
  cases message with
  | bootstrap views =>
      refine ⟨rfl, rfl, ?_⟩
      intro pane
      rfl
  | layout closed =>
      refine ⟨rfl, rfl, ?_⟩
      intro pane
      by_cases gone : pane ∈ closed
      · simp [forPane, Client.apply, gone, TerminalStream.takes]
      · simp [forPane, Client.apply, gone]
  | frame pane frame =>
      rcases fine pane (.frame frame) (by simp [forPane]) with ⟨mine, taken⟩
      have others : ∀ other, other ≠ pane → forPane other (.frame pane frame) = none := by
        intro other apart
        rw [forPane, if_neg (Ne.symm apart)]
      simp only [TerminalStream.takes] at taken
      by_cases ignored : (client.watched.isSome && !(watches client.watched pane &&
          ((client.terminals pane).isSome || isFull frame))) = true
      · rw [if_pos ignored] at taken
        have same : client.apply (.frame pane frame) = client := by
          simp only [Client.apply, ignored, if_true]
        rw [same]
        refine ⟨rfl, rfl, ?_⟩
        intro other
        by_cases here : other = pane
        · subst here
          simp only [forPane, if_true, TerminalStream.takes, ignored, Option.getD_some]
        · rw [others other here]
      · rw [if_neg ignored] at taken
        rcases Option.map_eq_some_iff.mp taken with ⟨view, received, rfl⟩
        have next : client.apply (.frame pane frame) =
            { client with terminals := Function.update client.terminals pane (some view) } := by
          simp only [Client.apply, ignored, received]
          rfl
        rw [next]
        refine ⟨rfl, rfl, ?_⟩
        intro other
        by_cases here : other = pane
        · subst here
          simp only [forPane, if_true, TerminalStream.takes, ignored, received,
            Function.update_self]
          rfl
        · rw [others other here]
          exact Function.update_of_ne here _ _

end Client

end Condr.TerminalStream
