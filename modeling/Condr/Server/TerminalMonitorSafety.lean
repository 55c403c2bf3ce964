import Condr.Server.TerminalMonitor
import Condr.Terminal.VtViewRuns

/-!
# No update is lost

While it is not between a frame and its publication, the Server's view has the content of the view
taken last, and what the screen has beyond that is owed: a writer has not sent its update, the
update is not received, or the monitor looks again in time. Four windows break this, and the runs
here stay out of them: a view read at the revision of the last one with other cells, a whole view
read in place of a frame with something written since, a synchronized update that times out while
the monitor turns from a held frame to its wait, and a view for someone else that settles the
cursor the monitor was to look at again.
-/

namespace Condr.Monitor

open Budget (Within)
open TerminalView (content)

/-! ## Cursors -/

theorem reported_of_idle {settle : CursorSettle} (idle : settle.candidate = none)
    (cursor : Option TerminalCursor) (now : ℕ) : settle.reported cursor now = cursor := by
  cases cursor with
  | none => rfl
  | some cursor => simp only [CursorSettle.reported, idle]

/-- A cursor that is not held is the one that was read. -/
theorem settledCursor_of_idle {settles : Bool} {settle : CursorSettle}
    {cursor : Option TerminalCursor} {now : ℕ}
    (idle : cursorSettlePending settles (settledCursor settles settle cursor now).1 = false) :
    (settledCursor settles settle cursor now).2 = cursor := by
  cases settles with
  | false => rfl
  | true =>
      apply reported_of_idle
      simpa [cursorSettlePending, settledCursor] using idle

/-! ## Frames that the Server takes -/

/-- A view that a frame may be made of. -/
structure Fair (view : TerminalView String) : Prop where
  few : view.cells.length ≤ 2 ^ 32
  within : Within hyperlinkLimits (linkTexts view.cells)

theorem Fair.settle_full {view : TerminalView String} (fair : Fair view) :
    settleView ∅ view = view := by
  apply settleView_eq_self.mpr
  apply settleCells_of_within
  rw [Finset.empty_union]
  exact fair.within

theorem receive_full (retained : Option (TerminalView String)) (view : TerminalView String) :
    receive retained (.full view) = some (settleView ∅ view) := by
  cases retained <;> rfl

theorem Fair.receive_full {view : TerminalView String} (fair : Fair view)
    (retained : Option (TerminalView String)) : receive retained (.full view) = some view := by
  rw [Monitor.receive_full, fair.settle_full]

/-- What the Server makes of a frame that leads to a view, where it takes it at all. -/
theorem receive_frameFrom {baseline view retained next : TerminalView String}
    {frame : TerminalViewFrame String} (fair : Fair view)
    (answers : TerminalView.frameFrom (some baseline) view = some (some frame))
    (same : content retained = content baseline) (received : receive (some retained) frame = some next) :
    content next = content view := by
  rcases TerminalView.frameFrom_cases answers with whole | ⟨runs, follows, none | part⟩
  · cases whole
    rw [fair.receive_full] at received
    cases received
    rfl
  · cases none.1
  cases part
  have applies := ((frame_from_leads baseline view).1 _ answers).1
  have kept := Holder.settle_of_within applies fair.within
  cases valid : retained.validateDelta (baseline.deltaFrom view runs) with
  | error error =>
      have refused : retained.validateFrame
          (Holder.settle retained (.delta (baseline.deltaFrom view runs))) = .error error := by
        rw [Holder.validateFrame_settle]
        exact valid
      simp only [receive, TerminalView.applyFrame, refused] at received
      cases received
  | ok done =>
      have revision : retained.revision = baseline.revision := by
        by_contra apart
        have newer : ¬view.revision ≤ baseline.revision := Nat.not_le.mpr follows.later
        rw [TerminalView.validateDelta, TerminalView.deltaFrom, if_neg newer, if_pos apart] at valid
        cases valid
      cases TerminalView.eq_of_content same revision
      rw [receive, kept, applies] at received
      cases received
      rfl

/-! ## What stands between two frames -/

/-- A writer or the channel still has something for the monitor. -/
def Owed (state : State) : Prop :=
  0 < state.written ∨ state.advanced ≠ [] ∨ state.updates ≠ []

def UpToDate (state : State) (view : TerminalView String) : Prop :=
  content view = content state.screen ∨ Owed state

def Agrees (state : State) (view : TerminalView String) : Prop :=
  ∀ baseline ∈ state.baseline, content view = content baseline

/-- The Server's view agrees with the one last taken. -/
def Kept (state : State) (extra : TerminalView String → Prop) : Prop :=
  ∃ retained, state.retained = some retained ∧ Agrees state retained ∧ extra retained

/-- A view read for a frame. -/
structure Reads (state : State) (view : TerminalView String) : Prop where
  fair : Fair view
  bounded : view.revision ≤ state.revision

/-- What holds while the monitor stands somewhere. -/
def Stands (settles : Bool) (state : State) : Phase → Prop
  | .looking => Kept state fun retained => UpToDate state retained ∨ state.held = true ∨
      cursorSettlePending settles state.settle = true
  | .looked held => Kept state fun retained => UpToDate state retained ∨ held = true ∨
      cursorSettlePending settles state.settle = true
  | .waiting timed => Kept state fun retained => UpToDate state retained ∨ timed = true
  | .coalescing | .taking => Kept state fun _ => True
  | .read view => Reads state view ∧ UpToDate state view ∧ Kept state fun _ => True
  | .settled view => Reads state view ∧
      (UpToDate state view ∨ cursorSettlePending settles state.settle = true) ∧
        Kept state fun _ => True
  | .publishing frame => ∃ view, Agrees state view ∧
      (UpToDate state view ∨ cursorSettlePending settles state.settle = true) ∧
        ∀ next, receive state.retained frame = some next → content next = content view
  | .reread view => Fair view ∧ UpToDate state view
  | .recovering | .ended => True

structure Upheld (settles : Bool) (state : State) : Prop where
  screen : Fair state.screen
  bounded : ∀ baseline, state.baseline = some baseline → baseline.revision ≤ state.revision
  stands : Stands settles state state.phase

/-- A step of the monitor that stays out of the windows. -/
def HeedsMonitor (settles : Bool) (now : ℕ) (state : State) : Phase → Prop
  | .settled view => ∀ baseline ∈ state.baseline, view.revision ≤ baseline.revision →
      view.cursor = baseline.cursor → content view = content baseline
  | .reread view => Agrees state
      { view with cursor := (settledCursor settles state.settle view.cursor now).2 }
  | _ => True

/-- The step stays out of the windows. -/
def Heeds (settles : Bool) (state : State) : Label → Prop
  | .expire => state.phase ≠ .looking
  | .look cursor now => cursorSettlePending settles state.settle = true →
      cursorSettlePending settles (settledCursor settles state.settle cursor now).1 = true ∨
        state.phase = .waiting true
  | .monitor now => HeedsMonitor settles now state state.phase
  | _ => True

instance (state : State) (view : TerminalView String) : Decidable (Agrees state view) :=
  inferInstanceAs (Decidable (∀ baseline ∈ state.baseline, _))

instance (settles : Bool) (now : ℕ) (state : State) :
    (phase : Phase) → Decidable (HeedsMonitor settles now state phase)
  | .settled _ => inferInstanceAs (Decidable (∀ baseline ∈ state.baseline, _ → _ → _))
  | .reread _ => inferInstanceAs (Decidable (Agrees _ _))
  | .looking | .looked _ | .waiting _ | .coalescing | .taking | .read _ | .publishing _
  | .recovering | .ended => inferInstanceAs (Decidable True)

instance (settles : Bool) (state : State) : (label : Label) → Decidable (Heeds settles state label)
  | .expire => inferInstanceAs (Decidable (_ ≠ _))
  | .look _ _ => inferInstanceAs (Decidable (_ → _ ∨ _))
  | .monitor _ => inferInstanceAs (Decidable (HeedsMonitor _ _ _ _))
  | .change _ _ _ | .advance | .send _ | .exit => inferInstanceAs (Decidable True)

/-- The runs that stay out of the windows. -/
def heedingSystem (settles : Bool) : Transition.System State Label where
  initial := Starts
  step := fun state label next =>
    (monitorSystem settles).step state label next ∧ Heeds settles state label

/-! ## Steps of the others -/

variable {settles : Bool} {state next : State}

theorem Kept.mono {extra other : TerminalView String → Prop} (kept : Kept state extra)
    (retained : next.retained = state.retained) (baseline : next.baseline = state.baseline)
    (implies : ∀ view, extra view → other view) : Kept next other := by
  rcases kept with ⟨view, there, agrees, holds⟩
  refine ⟨view, retained.trans there, ?_, implies view holds⟩
  intro taken isTaken
  rw [baseline] at isTaken
  exact agrees taken isTaken

/-- A step that is not the monitor's leaves the monitor where it stands. -/
theorem Stands.mono {phase : Phase} (stands : Stands settles state phase)
    (retained : next.retained = state.retained) (baseline : next.baseline = state.baseline)
    (revision : state.revision ≤ next.revision)
    (upToDate : ∀ view, UpToDate state view → UpToDate next view)
    (held : state.held = true → next.held = true ∨ phase ≠ .looking ∨ Owed next)
    (pending : cursorSettlePending settles state.settle = true →
      cursorSettlePending settles next.settle = true ∨ phase = .waiting true ∨ Owed next) :
    Stands settles next phase := by
  have agrees : ∀ view, Agrees state view → Agrees next view := by
    intro view agrees taken isTaken
    rw [baseline] at isTaken
    exact agrees taken isTaken
  have owed : ∀ view, Owed next → UpToDate next view := fun view owed => .inr owed
  cases phase with
  | looking =>
      apply Kept.mono stands retained baseline
      rintro view (current | holds | pends)
      · exact .inl (upToDate view current)
      · rcases held holds with still | away | due
        · exact .inr (.inl still)
        · exact absurd rfl away
        · exact .inl (owed view due)
      · rcases pending pends with still | waits | due
        · exact .inr (.inr still)
        · cases waits
        · exact .inl (owed view due)
  | looked holds =>
      apply Kept.mono stands retained baseline
      rintro view (current | holds | pends)
      · exact .inl (upToDate view current)
      · exact .inr (.inl holds)
      · rcases pending pends with still | waits | due
        · exact .inr (.inr still)
        · cases waits
        · exact .inl (owed view due)
  | waiting timed =>
      apply Kept.mono stands retained baseline
      rintro view (current | timed)
      · exact .inl (upToDate view current)
      · exact .inr timed
  | coalescing => exact Kept.mono stands retained baseline fun _ holds => holds
  | taking => exact Kept.mono stands retained baseline fun _ holds => holds
  | read view =>
      rcases stands with ⟨reads, current, kept⟩
      exact ⟨⟨reads.fair, reads.bounded.trans revision⟩, upToDate view current,
        kept.mono retained baseline fun _ holds => holds⟩
  | settled view =>
      rcases stands with ⟨reads, current | pends, kept⟩
      · exact ⟨⟨reads.fair, reads.bounded.trans revision⟩, .inl (upToDate view current),
          kept.mono retained baseline fun _ holds => holds⟩
      · refine ⟨⟨reads.fair, reads.bounded.trans revision⟩, ?_,
          kept.mono retained baseline fun _ holds => holds⟩
        rcases pending pends with still | waits | due
        · exact .inr still
        · cases waits
        · exact .inl (owed view due)
  | publishing frame =>
      rcases stands with ⟨view, agreed, current | pends, received⟩
      · refine ⟨view, agrees view agreed, .inl (upToDate view current), ?_⟩
        rwa [retained]
      · refine ⟨view, agrees view agreed, ?_, ?_⟩
        · rcases pending pends with still | waits | due
          · exact .inr still
          · cases waits
          · exact .inl (owed view due)
        · rwa [retained]
  | recovering => trivial
  | reread view => exact ⟨stands.1, upToDate view stands.2⟩
  | ended => trivial

/-- Where something is owed after a step, the screen may be any. -/
theorem Stands.of_owed {phase : Phase} (stands : Stands settles state phase)
    (retained : next.retained = state.retained) (baseline : next.baseline = state.baseline)
    (revision : state.revision ≤ next.revision) (owed : Owed next) : Stands settles next phase :=
  stands.mono retained baseline revision (fun _ _ => .inr owed) (fun _ => .inr (.inr owed))
    fun _ => .inr (.inr owed)

/-- A step of another thread. -/
theorem Upheld.other {label : Label} (upheld : Upheld settles state)
    (enabled : state.Enabled label) (heeds : Heeds settles state label)
    (other : ∀ now, label ≠ .monitor now) : Upheld settles (state.perform settles label) := by
  rcases upheld with ⟨screen, bounded, stands⟩
  cases label with
  | change view held observed =>
      refine ⟨⟨enabled.1, enabled.2⟩, bounded, ?_⟩
      exact stands.of_owed rfl rfl le_rfl (.inl (Nat.succ_pos _))
  | advance =>
      refine ⟨screen, ?_, ?_⟩
      · intro baseline isTaken
        exact (bounded baseline isTaken).trans (Nat.le_succ _)
      · exact stands.of_owed rfl rfl (Nat.le_succ _) (.inr (.inl (List.cons_ne_nil _ _)))
  | send revision =>
      refine ⟨screen, bounded, ?_⟩
      exact stands.of_owed rfl rfl le_rfl (.inr (.inr (List.append_ne_nil_of_right_ne_nil _
        (List.cons_ne_nil _ _))))
  | expire =>
      refine ⟨screen, bounded, ?_⟩
      exact stands.mono rfl rfl le_rfl (fun _ current => current) (fun _ => .inr (.inl heeds))
        fun pends => .inl pends
  | look cursor now =>
      refine ⟨screen, bounded, ?_⟩
      refine stands.mono rfl rfl le_rfl (fun _ current => current) (fun held => .inl held) ?_
      intro pends
      rcases heeds pends with still | waits
      · exact .inl still
      · exact .inr (.inl waits)
  | exit =>
      refine ⟨screen, bounded, ?_⟩
      exact stands.of_owed rfl rfl le_rfl (.inr (.inr (List.append_ne_nil_of_right_ne_nil _
        (List.cons_ne_nil _ _))))
  | monitor now => exact absurd rfl (other now)

/-! ## Steps of the monitor -/

/-- What a step of the monitor leaves for the next one. -/
theorem Upheld.receive {updates : List Update} (upheld : Upheld settles state)
    (kept : Kept state fun _ => True) (there : state.updates = updates) (some : updates ≠ []) :
    Upheld settles state.receive := by
  rcases upheld with ⟨screen, bounded, stands⟩
  subst there
  cases listed : state.updates with
  | nil => exact absurd listed some
  | cons update updates =>
      cases update with
      | view revision =>
          simp only [State.receive, listed]
          exact ⟨screen, bounded, kept⟩
      | exited =>
          simp only [State.receive, listed]
          exact ⟨screen, bounded, trivial⟩

theorem fair_view (fair : Fair state.screen) : Fair state.view := ⟨fair.few, fair.within⟩

theorem Kept.widen {extra : TerminalView String → Prop} (kept : Kept state extra) :
    Kept state fun _ => True := by
  rcases kept with ⟨retained, there, agrees, -⟩
  exact ⟨retained, there, agrees, trivial⟩

/-- With the settled cursor a view is up to date, or the cursor is still held. -/
theorem upToDate_settled {view : TerminalView String} {now : ℕ}
    (current : UpToDate state view) (next : State) (screen : next.screen = state.screen)
    (owed : Owed state → Owed next)
    (settle : next.settle = (settledCursor settles state.settle view.cursor now).1) :
    UpToDate next { view with cursor := (settledCursor settles state.settle view.cursor now).2 } ∨
      cursorSettlePending settles next.settle = true := by
  cases pends : cursorSettlePending settles next.settle with
  | true => exact .inr rfl
  | false =>
      rw [settle] at pends
      rw [settledCursor_of_idle pends]
      rcases current with same | due
      · exact .inl (.inl (by rw [screen]; exact same))
      · exact .inl (.inr (owed due))

theorem Kept.current {view retained : TerminalView String} (there : state.retained = some retained)
    (baseline : state.baseline = some view) (same : content retained = content view)
    (current : UpToDate state view ∨ cursorSettlePending settles state.settle = true) :
    Stands settles state .looking := by
  refine ⟨retained, there, ?_, ?_⟩
  · intro taken isTaken
    rw [baseline] at isTaken
    cases isTaken
    exact same
  · rcases current with (shows | due) | pends
    · exact .inl (.inl (same.trans shows))
    · exact .inl (.inr due)
    · exact .inr (.inr pends)

/-- A taken view is a frame, or the Server has its content already. -/
theorem stands_framePhase {baseline view retained : TerminalView String} (fair : Fair view)
    (there : state.retained = some retained) (taken : state.baseline = some view)
    (same : content retained = content baseline)
    (current : UpToDate state view ∨ cursorSettlePending settles state.settle = true) :
    Stands settles state (State.framePhase (TerminalView.frameFrom (some baseline) view)) := by
  have answers := (frame_from_leads baseline view).2.2 fair.few
  cases frame : TerminalView.frameFrom (some baseline) view with
  | none =>
      rw [frame] at answers
      cases answers
  | some frame' =>
      cases frame' with
      | none =>
          have unchanged := (frame_from_leads baseline view).2.1 frame
          exact Kept.current there taken (same.trans (congrArg content unchanged).symm) current
      | some sent =>
          refine ⟨view, ?_, current, ?_⟩
          · intro other isTaken
            rw [taken] at isTaken
            cases isTaken
            rfl
          · intro next received
            rw [there] at received
            exact receive_frameFrom fair frame same received

theorem Upheld.compare {view : TerminalView String} {now : ℕ} (upheld : Upheld settles state)
    (phase : state.phase = .settled view) (heeds : Heeds settles state (.monitor now)) :
    Upheld settles (state.compare view) := by
  have stands := upheld.stands
  rw [phase] at stands
  rcases stands with ⟨⟨fair, bounded⟩, current, retained, there, agrees, -⟩
  simp only [Heeds, HeedsMonitor, phase] at heeds
  cases taken : state.baseline with
  | none =>
      simp only [State.compare, taken, Option.any_none, Bool.false_eq_true, if_false,
        TerminalView.frameFrom]
      refine ⟨upheld.screen, ?_, view, ?_, current, ?_⟩
      · intro baseline isTaken
        cases isTaken
        exact bounded
      · intro baseline isTaken
        cases isTaken
        rfl
      · intro next received
        rw [fair.receive_full] at received
        cases received
        rfl
  | some baseline =>
      have below := upheld.bounded baseline taken
      have same := agrees baseline taken
      by_cases old : view.revision ≤ baseline.revision
      · by_cases cursor : view.cursor = baseline.cursor
        · have unchanged := heeds baseline taken old cursor
          simp only [State.compare, taken, Option.any_some, old, cursor, ne_eq, not_true_eq_false,
            decide_true, decide_false, Bool.and_false, Bool.false_eq_true, if_false, if_true]
          refine ⟨upheld.screen, ?_, ?_⟩
          · intro baseline isTaken
            cases isTaken
            exact bounded
          · exact Kept.current there rfl (same.trans unchanged.symm) current
        · have moved : ¬state.revision + 1 ≤ baseline.revision := by omega
          have apart : baseline.cursor ≠ view.cursor := Ne.symm cursor
          simp only [State.compare, taken, Option.any_some, old, apart, ne_eq, not_false_eq_true,
            decide_true, Bool.and_true, if_true, moved, decide_false, Bool.false_eq_true, if_false]
          refine ⟨upheld.screen, ?_, ?_⟩
          · intro baseline isTaken
            cases isTaken
            exact le_rfl
          · exact stands_framePhase ⟨fair.few, fair.within⟩ there rfl same current
      · simp only [State.compare, taken, Option.any_some, old, decide_false, Bool.false_and,
          Bool.false_eq_true, if_false]
        refine ⟨upheld.screen, ?_, ?_⟩
        · intro baseline isTaken
          cases isTaken
          exact bounded
        · exact stands_framePhase fair there rfl same current

theorem Upheld.monitor {now : ℕ} (upheld : Upheld settles state)
    (heeds : Heeds settles state (.monitor now)) : Upheld settles (state.monitor settles now) := by
  have stands := upheld.stands
  cases phase : state.phase with
  | looking =>
      rw [phase] at stands
      simp only [State.monitor, phase]
      exact ⟨upheld.screen, upheld.bounded, stands⟩
  | looked held =>
      rw [phase] at stands
      simp only [State.monitor, phase]
      refine ⟨upheld.screen, upheld.bounded, ?_⟩
      apply Kept.mono stands rfl rfl
      rintro view (current | holds | pends)
      · exact .inl current
      · exact .inr (by rw [holds, Bool.true_or])
      · exact .inr (by rw [pends, Bool.or_true])
  | waiting timed =>
      rw [phase] at stands
      simp only [State.monitor, phase]
      split_ifs with some timed
      · exact upheld.receive (Kept.widen stands) rfl some
      · exact ⟨upheld.screen, upheld.bounded, Kept.widen stands⟩
      · refine ⟨upheld.screen, upheld.bounded, ?_⟩
        apply Kept.mono stands rfl rfl
        rintro view (current | limit)
        · exact .inl current
        · exact absurd limit timed
  | coalescing =>
      rw [phase] at stands
      simp only [State.monitor, phase]
      split_ifs with some
      · exact upheld.receive (Kept.widen stands) rfl some
      · exact ⟨upheld.screen, upheld.bounded, stands⟩
  | taking =>
      rw [phase] at stands
      simp only [State.monitor, phase]
      split_ifs with held
      · refine ⟨upheld.screen, upheld.bounded, ?_⟩
        apply Kept.mono stands rfl rfl
        intro view _
        exact .inr (.inl held)
      · exact ⟨upheld.screen, upheld.bounded, ⟨fair_view upheld.screen, le_rfl⟩, .inl rfl, stands⟩
  | read view =>
      rw [phase] at stands
      rcases stands with ⟨⟨fair, bounded⟩, current, kept⟩
      simp only [State.monitor, phase]
      refine ⟨upheld.screen, upheld.bounded, ⟨⟨fair.few, fair.within⟩, bounded⟩, ?_, kept⟩
      exact upToDate_settled current _ rfl (fun owed => owed) rfl
  | settled view =>
      simp only [State.monitor, phase]
      exact upheld.compare phase heeds
  | publishing frame =>
      rw [phase] at stands
      rcases stands with ⟨view, agrees, current, received⟩
      simp only [State.monitor, phase]
      cases there : Condr.receive state.retained frame with
      | none => exact ⟨upheld.screen, upheld.bounded, trivial⟩
      | some retained =>
          have same := received retained there
          refine ⟨upheld.screen, upheld.bounded, retained, rfl, ?_, ?_⟩
          · intro baseline taken
            rw [same]
            exact agrees baseline taken
          · rcases current with (shows | due) | pends
            · exact .inl (.inl (same.trans shows))
            · exact .inl (.inr due)
            · exact .inr (.inr pends)
  | recovering =>
      simp only [State.monitor, phase]
      exact ⟨upheld.screen, upheld.bounded, fair_view upheld.screen, .inl rfl⟩
  | reread view =>
      rw [phase] at stands
      rcases stands with ⟨fair, current⟩
      simp only [Heeds, HeedsMonitor, phase] at heeds
      simp only [State.monitor, phase]
      refine ⟨upheld.screen, upheld.bounded, _, heeds, ?_, ?_⟩
      · exact upToDate_settled current _ rfl (fun owed => owed) rfl
      · intro next received
        have settled : Fair { view with
          cursor := (settledCursor settles state.settle view.cursor now).2 } := ⟨fair.few, fair.within⟩
        rw [settled.receive_full] at received
        cases received
        rfl
  | ended =>
      simp only [State.monitor, phase]
      exact upheld

theorem upheld_of_reachable (reached : (heedingSystem settles).Reachable state) :
    Upheld settles state := by
  apply reached.invariant (Upheld settles)
  · intro state starts
    refine ⟨⟨starts.few, starts.within⟩, ?_, ?_⟩
    · intro baseline taken
      rw [starts.baseline] at taken
      cases taken
    · rw [starts.phase]
      trivial
  · rintro state label next upheld ⟨⟨enabled, rfl⟩, heeds⟩
    cases label with
    | monitor now => exact upheld.monitor heeds
    | _ => exact upheld.other enabled heeds (fun now => Label.noConfusion)

/-- Where nothing is under way and the monitor sleeps without a time limit, the Server's view is
the screen, up to the revision. -/
theorem retained_shows_screen (reached : (heedingSystem settles).Reachable state)
    (waits : state.phase = .waiting false) (published : state.written = 0)
    (sent : state.advanced = []) (received : state.updates = []) :
    ∃ retained, state.retained = some retained ∧ content retained = content state.screen := by
  have stands := (upheld_of_reachable reached).stands
  rw [waits] at stands
  rcases stands with ⟨retained, there, -, (shows | owed) | timed⟩
  · exact ⟨retained, there, shows⟩
  · rcases owed with written | advanced | updates
    · omega
    · exact absurd sent advanced
    · exact absurd received updates
  · cases timed

def cellOf (text : String) (hyperlink : Option String) : TerminalCell String :=
  ⟨text, .indexed 7, .indexed 0, .indexed 7, 0, hyperlink⟩

/-- A row of four cells that ends in a link, with the cursor before it. -/
def typed (text linked : List String) : TerminalView String where
  revision := 0
  size := ⟨1, 4, 8, 16⟩
  displayOffset := 0
  mouseTracking := .none
  cells := text.map (cellOf · none) ++ linked.map (cellOf · (some "https://ok"))
  cursor := some ⟨0, UInt16.ofNat text.length, .block, false⟩
  selection := none

/-- A terminal before its first view is read. -/
def started : State where
  screen := typed [" ", " ", " ", " "] []
  held := false
  revision := 0
  written := 0
  advanced := []
  updates := []
  settle := ⟨none, none, none⟩
  baseline := none
  retained := none
  phase := .recovering

theorem starts_started : Starts started where
  few := by decide
  within := Budget.within_empty
  baseline := rfl
  phase := rfl

/-- Steps of the monitor in a row. -/
def turns (count : ℕ) : List Label := List.replicate count (.monitor 0)

/-- One step, where it may be taken. -/
def attemptHeeding (state : State) (label : Label) : Option State :=
  if state.Enabled label ∧ Heeds false state label then some (state.perform false label) else none

theorem step_of_attemptHeeding (state : State) (label : Label) (next : State)
    (performed : attemptHeeding state label = some next) :
    (heedingSystem false).step state label next := by
  rcases Option.ite_none_right_eq_some.mp performed with ⟨⟨enabled, heeds⟩, same⟩
  cases same
  exact ⟨⟨enabled, rfl⟩, heeds⟩

/-- The first view is read, and then a prompt. -/
def prompted : List Label :=
  turns 5 ++ [.change (typed ["$", " ", " ", " "] []) false none, .advance, .send 1] ++ turns 8

/-- A link is printed in a synchronized update that times out. -/
def printed : List Label :=
  [.change (typed ["$", " "] ["o", "k"]) true none, .advance, .send 2] ++ turns 10 ++
    .expire :: turns 5

def linkDelta : TerminalViewDelta String where
  baseRevision := 1
  revision := 2
  displayOffset := 0
  mouseTracking := .none
  cursor := some ⟨0, 2, .block, false⟩
  selection := none
  runs := [⟨2, ["o", "k"].map (cellOf · (some "https://ok"))⟩]

/-- The monitor sleeps after the link. -/
def asleep : State :=
  let view := { typed ["$", " "] ["o", "k"] with revision := 2 }
  { started with
    screen := typed ["$", " "] ["o", "k"]
    revision := 2
    baseline := some view
    retained := some view
    phase := .waiting false }

/-- A link behind a prompt goes out as a delta, and is in the Server's view once the monitor sleeps
again. -/
theorem retained_shows_screen_example :
    (Transition.System.runLabels attemptHeeding started (prompted ++ printed)).map State.phase =
        some (.publishing (.delta linkDelta)) ∧
      Transition.System.runLabels attemptHeeding started (prompted ++ printed ++ turns 3) =
        some asleep ∧
      ∃ retained, asleep.retained = some retained ∧
        content retained = content (typed ["$", " "] ["o", "k"]) := by
  have runs : Transition.System.runLabels attemptHeeding started
      (prompted ++ printed ++ turns 3) = some asleep := by
    decide +kernel
  have reached : (heedingSystem false).Reachable asleep :=
    .of_runLabels step_of_attemptHeeding (.start starts_started) runs
  exact ⟨by decide +kernel, runs, retained_shows_screen reached rfl rfl rfl rfl⟩

end Condr.Monitor
