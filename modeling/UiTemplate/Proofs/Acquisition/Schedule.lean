import UiTemplate.Acquisition

/-!
What can happen to an acquisition when reloads, launches and outcomes come in
any order. A history is what has happened since the start, first things first.
Several callers may reload at once: a call is one step, whether it is accepted or
not, and the launch that an accepted call owes is another step at any later
time.

One invariant carries all that is said here. There are three phases, waiting,
running and settled, and in each of them the attempts that were published are
all accepted ones but the last, or all of them, in the order of acceptance. So
there is never a second attempt that could publish over the outcome of a newer
one.
-/

namespace UiTemplate

namespace AttemptOutcome

/-- However an attempt ends, it ends. -/
theorem isPending_settle (outcome : AttemptOutcome) : outcome.settle.isPending = false := by
  cases outcome with
  | crashed reason => rfl
  | answered answer =>
    cases answer with
    | error error => rfl
    | ok json =>
      rw [settle]
      split
      · rfl
      · rfl

end AttemptOutcome

namespace Acquisition

/-- What happens in one step: a call of reload and its result, the launch of an
attempt, or the end of one. -/
inductive Event where
  | reloaded (accepted : Bool)
  | launched (attempt : Nat)
  | published (attempt : Nat) (outcome : AttemptOutcome)

namespace Event

def accepts : Event → Bool
  | .reloaded accepted => accepted
  | _ => false

def attempt? : Event → Option Nat
  | .published attempt _ => some attempt
  | _ => none

end Event

/-- The steps of an acquisition. Only an accepted attempt can be launched and
only a launched one can end; it may end in any way. -/
inductive Step : Acquisition → Event → Acquisition → Prop where
  | reload (acquisition : Acquisition) :
    Step acquisition (.reloaded acquisition.reload.2) acquisition.reload.1
  | launch {acquisition : Acquisition} {attempt : Nat} (hwaiting : attempt ∈ acquisition.waiting) :
    Step acquisition (.launched attempt) (acquisition.launch attempt)
  | publish {acquisition : Acquisition} {attempt : Nat} (hrunning : attempt ∈ acquisition.running)
    (outcome : AttemptOutcome) :
    Step acquisition (.published attempt outcome) (acquisition.publish attempt outcome)

/-- What an acquisition can have become, and what happened until then. -/
inductive Run (path : String) : List Event → Acquisition → Prop where
  | start : Run path [] (start path)
  | step {history : List Event} {acquisition next : Acquisition} {event : Event}
    (hrun : Run path history acquisition) (hstep : Step acquisition event next) :
    Run path (history ++ [event]) next

/-- The attempts that have been published, in the order in which they were. -/
def published (history : List Event) : List Nat :=
  history.filterMap Event.attempt?

def reloads (history : List Event) : Nat :=
  history.countP Event.accepts

/-- The attempts that are accepted but not published. -/
def outstanding (history : List Event) (acquisition : Acquisition) : List Nat :=
  (List.range acquisition.accepted).filter fun attempt => !(published history).contains attempt

theorem filter_not_mem_range (count : Nat) :
    (List.range count).filter (fun attempt => !(List.range count).contains attempt) = [] := by
  rw [List.filter_eq_nil_iff]
  intro attempt hattempt
  simpa using List.mem_range.1 hattempt

theorem published_append (history : List Event) (event : Event) :
    published (history ++ [event]) = published history ++ event.attempt?.toList := by
  rw [published, List.filterMap_append, published]
  cases h : event.attempt? with
  | none => simp [h]
  | some attempt => simp [h]

theorem reloads_append (history : List Event) (event : Event) :
    reloads (history ++ [event]) = reloads history + event.accepts.toNat := by
  rw [reloads, List.countP_append, reloads]
  cases h : event.accepts with
  | false => simp [h]
  | true => simp [h]

/-- A reload while an attempt is under way is refused and changes nothing. -/
theorem reload_of_pending {acquisition : Acquisition}
    (h : acquisition.state.isPending = true) : acquisition.reload = (acquisition, false) := by
  rw [reload, if_pos h]

/-- A reload of a settled acquisition makes one more attempt, which waits. -/
theorem reload_of_settled {acquisition : Acquisition}
    (h : acquisition.state.isPending = false) :
    acquisition.reload =
      ({ acquisition with
          state := .pending
          accepted := acquisition.accepted + 1
          waiting := acquisition.waiting ++ [acquisition.accepted] }, true) := by
  rw [reload, if_neg (by simp [h])]

theorem reload_of_rejected {acquisition : Acquisition} (h : acquisition.reload.2 = false) :
    acquisition.reload.1 = acquisition := by
  cases hstate : acquisition.state.isPending with
  | true => rw [reload_of_pending hstate]
  | false =>
    rw [reload_of_settled hstate] at h
    cases h

theorem accepted_launch (acquisition : Acquisition) (attempt : Nat) :
    (acquisition.launch attempt).accepted = acquisition.accepted := by
  unfold launch
  split
  · rfl
  · rfl

theorem accepted_publish (acquisition : Acquisition) (attempt : Nat) (outcome : AttemptOutcome) :
    (acquisition.publish attempt outcome).accepted = acquisition.accepted := by
  unfold publish
  split
  · rfl
  · rfl

/-- The phases of an acquisition with this history. -/
inductive Phase (path : String) (history : List Event) : Acquisition → Prop where
  | waiting {last : Nat} (hpublished : published history = List.range last) :
    Phase path history ⟨path, .pending, last + 1, [last], []⟩
  | running {last : Nat} (hpublished : published history = List.range last) :
    Phase path history ⟨path, .pending, last + 1, [], [last]⟩
  | settled {last : Nat} {outcome : AttemptOutcome}
    (hpublished : published history = List.range (last + 1))
    (hlast : .published last outcome ∈ history) :
    Phase path history ⟨path, outcome.settle, last + 1, [], []⟩

theorem phase_start (path : String) : Phase path [] (start path) :=
  .running rfl

namespace Phase

variable {path : String} {history : List Event} {acquisition next : Acquisition} {event : Event}

theorem reload (hphase : Phase path history acquisition) :
    Phase path (history ++ [.reloaded acquisition.reload.2]) acquisition.reload.1 := by
  have hsame : ∀ result, published (history ++ [.reloaded result]) = published history := by
    intro result
    rw [published_append]
    exact List.append_nil _
  cases hphase with
  | waiting hpublished =>
    rw [reload_of_pending rfl]
    exact .waiting ((hsame false).trans hpublished)
  | running hpublished =>
    rw [reload_of_pending rfl]
    exact .running ((hsame false).trans hpublished)
  | settled hpublished hlast =>
    rw [reload_of_settled (AttemptOutcome.isPending_settle _)]
    exact .waiting ((hsame true).trans hpublished)

theorem launch (hphase : Phase path history acquisition) {attempt : Nat}
    (hwaiting : attempt ∈ acquisition.waiting) :
    Phase path (history ++ [.launched attempt]) (acquisition.launch attempt) := by
  have hsame : published (history ++ [.launched attempt]) = published history := by
    rw [published_append]
    exact List.append_nil _
  cases hphase with
  | @waiting last hpublished =>
    obtain rfl : attempt = last := List.mem_singleton.1 hwaiting
    have hlaunch : Acquisition.launch ⟨path, .pending, attempt + 1, [attempt], []⟩ attempt =
        ⟨path, .pending, attempt + 1, [], [attempt]⟩ := by
      simp [Acquisition.launch]
    rw [hlaunch]
    exact .running (hsame.trans hpublished)
  | running _ => cases hwaiting
  | settled _ _ => cases hwaiting

/-- The only attempt that can publish is the last one accepted, and it has not
been published before. -/
theorem publish (hphase : Phase path history acquisition) {attempt : Nat}
    (hrunning : attempt ∈ acquisition.running) (outcome : AttemptOutcome) :
    Phase path (history ++ [.published attempt outcome])
      (acquisition.publish attempt outcome) := by
  cases hphase with
  | waiting _ => cases hrunning
  | @running last hpublished =>
    obtain rfl : attempt = last := List.mem_singleton.1 hrunning
    have hpublish : Acquisition.publish ⟨path, .pending, attempt + 1, [], [attempt]⟩ attempt
        outcome = ⟨path, outcome.settle, attempt + 1, [], []⟩ := by
      simp [Acquisition.publish]
    rw [hpublish]
    refine .settled ?_ (List.mem_append_right _ (List.mem_singleton.2 rfl))
    rw [published_append, hpublished, List.range_succ]
    rfl
  | settled _ _ => cases hrunning

/-- One step leads from a phase to a phase of the longer history. -/
theorem step (hphase : Phase path history acquisition) (hstep : Step acquisition event next) :
    Phase path (history ++ [event]) next := by
  cases hstep with
  | reload => exact hphase.reload
  | launch hwaiting => exact hphase.launch hwaiting
  | publish hrunning outcome => exact hphase.publish hrunning outcome

/-- In every phase the outstanding attempts are those that wait or run. -/
theorem outstanding (hphase : Phase path history acquisition) :
    Acquisition.outstanding history acquisition = acquisition.waiting ++ acquisition.running := by
  have hlast : ∀ last : Nat, (List.range (last + 1)).filter
      (fun attempt => !(List.range last).contains attempt) = [last] := by
    intro last
    rw [List.range_succ, List.filter_append, filter_not_mem_range]
    simp
  cases hphase with
  | waiting hpublished =>
    rw [Acquisition.outstanding, hpublished]
    exact hlast _
  | running hpublished =>
    rw [Acquisition.outstanding, hpublished]
    exact hlast _
  | settled hpublished _ =>
    rw [Acquisition.outstanding, hpublished]
    exact filter_not_mem_range _

/-- Pending is what is shown for as long as one attempt is under way. -/
theorem isPending (hphase : Phase path history acquisition) :
    (acquisition.state.isPending = true ∧
        ∃ attempt, acquisition.waiting ++ acquisition.running = [attempt]) ∨
      (acquisition.state.isPending = false ∧ acquisition.waiting ++ acquisition.running = []) := by
  cases hphase with
  | waiting _ => exact .inl ⟨rfl, _, rfl⟩
  | running _ => exact .inl ⟨rfl, _, rfl⟩
  | settled _ _ => exact .inr ⟨AttemptOutcome.isPending_settle _, rfl⟩

/-- No attempt is published twice. -/
theorem nodup_published (hphase : Phase path history acquisition) : (published history).Nodup := by
  cases hphase with
  | waiting hpublished => exact hpublished ▸ List.nodup_range
  | running hpublished => exact hpublished ▸ List.nodup_range
  | settled hpublished _ => exact hpublished ▸ List.nodup_range

/-- The attempt that runs is the last one accepted. -/
theorem last_of_running (hphase : Phase path history acquisition) {attempt : Nat}
    (hrunning : attempt ∈ acquisition.running) : attempt + 1 = acquisition.accepted := by
  cases hphase with
  | waiting _ => cases hrunning
  | @running last _ =>
    have hlast : attempt = last := List.mem_singleton.1 hrunning
    exact congrArg (· + 1) hlast
  | settled _ _ => cases hrunning

/-- What is shown when nothing is pending is what the last attempt came to. -/
theorem settled_by_last (hphase : Phase path history acquisition)
    (hsettled : acquisition.state.isPending = false) :
    ∃ last outcome, acquisition.accepted = last + 1 ∧ .published last outcome ∈ history ∧
      acquisition.state = outcome.settle := by
  cases hphase with
  | waiting _ => cases hsettled
  | running _ => cases hsettled
  | @settled last outcome _ hlast => exact ⟨last, outcome, rfl, hlast, rfl⟩

end Phase

/-- The phases are an invariant: every run is in one of them. -/
theorem Run.phase {path : String} {history : List Event} {acquisition : Acquisition}
    (hrun : Run path history acquisition) : Phase path history acquisition := by
  induction hrun with
  | start => exact phase_start path
  | step _ hstep ih => exact ih.step hstep

theorem Step.accepted {acquisition next : Acquisition} {event : Event}
    (hstep : Step acquisition event next) :
    next.accepted = acquisition.accepted + event.accepts.toNat := by
  cases hstep with
  | reload =>
    cases hstate : acquisition.state.isPending with
    | true =>
      rw [reload_of_pending hstate]
      rfl
    | false =>
      rw [reload_of_settled hstate]
      rfl
  | launch hwaiting => exact accepted_launch _ _
  | publish hrunning outcome => exact accepted_publish _ _ outcome

/-- Beside the first attempt there is one for every reload that was not refused. -/
theorem Run.accepted {path : String} {history : List Event} {acquisition : Acquisition}
    (hrun : Run path history acquisition) : acquisition.accepted = 1 + reloads history := by
  induction hrun with
  | start => rfl
  | step _ hstep ih =>
    rw [hstep.accepted, ih, reloads_append]
    omega

/-- Whatever happens in whatever order, there is at most one attempt under way.
The state is pending exactly when there is one, and otherwise it is what the
outcome of the last accepted attempt means; no attempt but the last accepted one
can publish, and none publishes twice. Attempts are accepted at the start and by
every call of reload that says so; the other calls change nothing. -/
theorem one_attempt_at_a_time {path : String} {history : List Event} {acquisition : Acquisition}
    (hrun : Run path history acquisition) :
    (acquisition.state.isPending = true ↔
      ∃ attempt, outstanding history acquisition = [attempt]) ∧
    (acquisition.state.isPending = false → outstanding history acquisition = []) ∧
    acquisition.accepted = 1 + reloads history ∧
    (published history).Nodup ∧
    (acquisition.state.isPending = false →
      ∃ last outcome, acquisition.accepted = last + 1 ∧ .published last outcome ∈ history ∧
        acquisition.state = outcome.settle) ∧
    (∀ attempt outcome next, Step acquisition (.published attempt outcome) next →
      attempt + 1 = acquisition.accepted) ∧
    (acquisition.reload.2 = false → acquisition.reload.1 = acquisition) := by
  have hphase := hrun.phase
  rw [hphase.outstanding]
  refine ⟨?_, ?_, hrun.accepted, hphase.nodup_published, hphase.settled_by_last, ?_,
    reload_of_rejected⟩
  · rcases hphase.isPending with ⟨hpending, hone⟩ | ⟨hsettled, hnone⟩
    · exact ⟨fun _ => hone, fun _ => hpending⟩
    · simp [hsettled, hnone]
  · intro hsettled
    rcases hphase.isPending with ⟨hpending, _⟩ | ⟨_, hnone⟩
    · rw [hsettled] at hpending
      cases hpending
    · exact hnone
  · intro attempt outcome next hstep
    cases hstep with
    | publish hrunning _ => exact hphase.last_of_running hrunning

/-- A first attempt that crashes and a second one that finds a template. Calls of
reload come in while each of them is under way, the last one before the second
attempt has been launched. -/
def twice : List Event :=
  [.reloaded false, .published 0 (.crashed "out of memory"), .reloaded true, .reloaded false,
    .launched 1, .published 1 (.answered (.ok (.object [("type", .string "View")])))]

/-- Of the three reloads only the one between the attempts is accepted. -/
theorem one_attempt_at_a_time_twice :
    ∃ acquisition, Run "page.json" twice acquisition ∧
      acquisition.accepted = 2 ∧ outstanding twice acquisition = [] ∧
      ∃ outcome, .published 1 outcome ∈ twice ∧ acquisition.state = outcome.settle := by
  have hstart : Run "page.json" [] (start "page.json") := .start
  have hpending := hstart.step (.reload _)
  have hcrashed := hpending.step (.publish (List.mem_singleton.2 rfl) (.crashed "out of memory"))
  have haccepted := hcrashed.step (.reload _)
  have hrejected := haccepted.step (.reload _)
  have hlaunched := hrejected.step (.launch (List.mem_singleton.2 rfl))
  have hready := hlaunched.step (.publish (List.mem_singleton.2 rfl)
    (.answered (.ok (.object [("type", .string "View")]))))
  have hsettled := AttemptOutcome.isPending_settle
    (.answered (.ok (.object [("type", .string "View")])))
  refine ⟨_, hready, rfl, (one_attempt_at_a_time hready).2.1 hsettled, ?_⟩
  obtain ⟨last, outcome, hlast, hpublished, hstate⟩ :=
    (one_attempt_at_a_time hready).2.2.2.2.1 hsettled
  cases hlast
  exact ⟨outcome, hpublished, hstate⟩

end Acquisition

end UiTemplate
