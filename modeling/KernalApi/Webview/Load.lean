import KernalApi.Std.Trace
import Mathlib.Data.List.Basic

/-!
# Waiting for a page to load

`LoadCompletion` holds the page a waiter waits for and the sender of its
channel. A page-load callback compares the loaded page with the awaited one and
then finishes the wait, under two acquisitions of the lock; `navigate` puts
another page and another sender there.
-/

namespace KernalApi.Webview

open KernalApi.Std

variable {υ ε : Type}

/-- The page a load waiter waits for, and the receiver its sender belongs to. -/
structure LoadTarget (υ : Type) where
  url : υ
  sender : Option Nat

namespace LoadTarget

def matchesRequested [DecidableEq υ] (target : LoadTarget υ) (loaded : υ) : Bool :=
  target.url = loaded

/-- Takes the sender. -/
def finish (target : LoadTarget υ) : Option Nat × LoadTarget υ :=
  (target.sender, { target with sender := none })

def rearm (url : υ) (receiver : Nat) : LoadTarget υ := ⟨url, some receiver⟩

end LoadTarget

inductive LoadEvent (υ ε : Type)
  /-- A receiver was made by `new` or `rearm`. -/
  | created (receiver : Nat) (target : υ)
  /-- The engine reported that a page has finished loading. -/
  | reported (url : υ)
  | answered (receiver : Nat) (result : Except ε Unit)

/-- The completion with the callbacks that are between their two sections and
everything that happened, oldest first. -/
structure LoadCompletion (υ ε : Type) where
  target : LoadTarget υ
  /-- The pages of the callbacks that found their page and have yet to finish. -/
  matched : List υ
  receivers : Nat
  history : List (LoadEvent υ ε)

/-- One acquisition of the lock. -/
inductive LoadAct (υ ε : Type)
  /-- A callback reports a finished page and compares it. -/
  | matchesRequested (url : υ)
  /-- A callback that found its page finishes the wait. -/
  | finishOk (url : υ)
  /-- Closing, a refused navigation or a popup finishes the wait. -/
  | finishErr (error : ε)
  | rearm (target : υ)

namespace LoadCompletion

def new (target : υ) : LoadCompletion υ ε where
  target := ⟨target, some 0⟩
  matched := []
  receivers := 1
  history := [.created 0 target]

def finish (completion : LoadCompletion υ ε) (result : Except ε Unit) : LoadCompletion υ ε :=
  let (sender, target) := completion.target.finish
  match sender with
  | some receiver =>
    { completion with target, history := completion.history ++ [.answered receiver result] }
  | none => { completion with target }

def rearm (completion : LoadCompletion υ ε) (target : υ) : LoadCompletion υ ε :=
  { completion with
    target := LoadTarget.rearm target completion.receivers
    receivers := completion.receivers + 1
    history := completion.history ++ [.created completion.receivers target] }

def step [DecidableEq υ] (completion : LoadCompletion υ ε) :
    LoadAct υ ε → Option (LoadCompletion υ ε)
  | .matchesRequested url =>
    some { completion with
      matched := if completion.target.matchesRequested url then url :: completion.matched
        else completion.matched
      history := completion.history ++ [.reported url] }
  | .finishOk url =>
    if url ∈ completion.matched then
      some { completion.finish (.ok ()) with matched := completion.matched.erase url }
    else none
  | .finishErr error => some (completion.finish (.error error))
  | .rearm target => some (completion.rearm target)

/-- Runs whose every act meets a condition. -/
inductive Runs [DecidableEq υ] (condition : LoadCompletion υ ε → LoadAct υ ε → Prop) (target : υ) :
    LoadCompletion υ ε → Prop
  | new : Runs condition target (new target)
  | step {before after : LoadCompletion υ ε} (act : LoadAct υ ε)
    (runs : Runs condition target before)
      (met : condition before act) (stepped : before.step act = some after) :
      Runs condition target after

/-- No callback is between its two sections when the awaited page is replaced. -/
def Undisturbed (completion : LoadCompletion υ ε) (act : LoadAct υ ε) : Prop :=
  ∀ target, act = .rearm target → completion.matched = []

/-- Why an answer is given: its receiver was made for a page and had no answer;
if the load succeeded, the receiver was not replaced yet. -/
def Timely (earlier : List (LoadEvent υ ε)) : LoadEvent υ ε → Prop
  | .answered receiver result =>
    (∀ other, .answered receiver other ∉ earlier) ∧
      (result = .ok () → ∃ older target newer, earlier =
        older ++ .created receiver target :: newer ∧ ∀ later other, .created later other ∉ newer)
  | _ => True

/-- Why a success is given: the awaited page was reported since its receiver was made. -/
def OwnPage (earlier : List (LoadEvent υ ε)) : LoadEvent υ ε → Prop
  | .answered receiver (.ok ()) =>
    ∃ older target newer, earlier = older ++ .created receiver target :: newer ∧
      .reported target ∈ newer
  | _ => True

/-- What one act does. -/
inductive Stepped (before : LoadCompletion υ ε) : LoadAct υ ε → LoadCompletion υ ε → Prop
  | reported {url : υ} {matched : List υ}
    (found : ∀ other ∈ matched, other ∈ before.matched ∨ other = url ∧ url = before.target.url) :
      Stepped before (.matchesRequested url)
        { before with matched, history := before.history ++ [.reported url] }
  | idle {act : LoadAct υ ε} {matched : List υ} (kept : matched ⊆ before.matched)
      (other : ∀ target, act ≠ .rearm target) : Stepped before act { before with matched }
  | answered {act : LoadAct υ ε} {matched : List υ} {receiver : Nat} {result : Except ε Unit}
      (kept : matched ⊆ before.matched) (other : ∀ target, act ≠ .rearm target)
      (waiting : before.target.sender = some receiver)
      (success : result = .ok () → ∃ url, url ∈ before.matched) :
      Stepped before act { before with
        target := { before.target with sender := none }
        matched
        history := before.history ++ [.answered receiver result] }
  | rearmed (target : υ) : Stepped before (.rearm target) (before.rearm target)

theorem finish_matched (completion : LoadCompletion υ ε) (result : Except ε Unit) :
    (completion.finish result).matched = completion.matched := by
  unfold finish LoadTarget.finish
  cases completion.target.sender <;> rfl

theorem Stepped.finish (before : LoadCompletion υ ε) {act : LoadAct υ ε} {matched : List υ}
    {result : Except ε Unit} (kept : matched ⊆ before.matched)
    (other : ∀ target, act ≠ .rearm target)
    (success : result = .ok () → ∃ url, url ∈ before.matched) :
    Stepped before act { before.finish result with matched } := by
  cases sender : before.target.sender with
  | none =>
    have same : before.finish result = before := by
      obtain ⟨⟨url, sender⟩, matched, receivers, history⟩ := before
      subst sender
      rfl
    rw [same]
    exact .idle kept other
  | some =>
    simp only [LoadCompletion.finish, LoadTarget.finish, sender]
    exact .answered kept other sender success

theorem step_cases [DecidableEq υ] {before after : LoadCompletion υ ε} {act : LoadAct υ ε}
    (stepped : before.step act = some after) : Stepped before act after := by
  cases act with
  | matchesRequested url =>
    cases stepped
    refine .reported fun other member => ?_
    by_cases found : before.target.matchesRequested url = true
    · rw [if_pos found, List.mem_cons] at member
      rw [LoadTarget.matchesRequested, decide_eq_true_eq] at found
      exact member.symm.imp_right fun same => ⟨same, found.symm⟩
    · rw [if_neg found] at member
      exact .inl member
  | finishOk url =>
    simp only [LoadCompletion.step] at stepped
    split at stepped
    · cases stepped
      exact .finish before (List.erase_subset) (by simp) fun _ => ⟨url, ‹_›⟩
    contradiction
  | finishErr error =>
    cases stepped
    have finished := @Stepped.finish _ _ before (.finishErr error) _ (.error error) (fun _ => id)
      (by simp) (by simp)
    rwa [← finish_matched before (.error error)] at finished
  | rearm target =>
    cases stepped
    exact .rearmed target

/-- No answer was given to a receiver that still waits, or to one that is yet to be made. -/
structure Owing (completion : LoadCompletion υ ε) : Prop where
  bounded : ∀ receiver result, .answered receiver result ∈ completion.history →
    receiver < completion.receivers
  waiting : ∀ receiver, completion.target.sender = some receiver →
    receiver < completion.receivers ∧ ∀ result, .answered receiver result ∉ completion.history

/-- What has happened since the last receiver was made. -/
structure Since (completion : LoadCompletion υ ε) (newer : List (LoadEvent υ ε)) : Prop where
  last : ∃ older receiver, completion.history =
    older ++ .created receiver completion.target.url :: newer ∧
    ∀ waiting, completion.target.sender = some waiting → waiting = receiver
  current : ∀ later other, .created later other ∉ newer

/-- The callbacks between their sections reported the awaited page since its receiver was made. -/
def Armed (completion : LoadCompletion υ ε) (newer : List (LoadEvent υ ε)) : Prop :=
  ∀ url ∈ completion.matched, url = completion.target.url ∧ .reported url ∈ newer

variable {before after : LoadCompletion υ ε} {act : LoadAct υ ε}

theorem Owing.new (target : υ) : Owing (LoadCompletion.new target : LoadCompletion υ ε) where
  bounded := by simp [LoadCompletion.new]
  waiting := by simp [LoadCompletion.new]

theorem Owing.step (owing : Owing before) (stepped : Stepped before act after) : Owing after := by
  cases stepped with
  | reported => exact ⟨by simpa using owing.bounded, by simpa using owing.waiting⟩
  | idle => exact ⟨owing.bounded, owing.waiting⟩
  | answered kept other waiting success =>
    refine ⟨?_, by simp⟩
    intro receiver given member
    rcases List.mem_append.1 member with old | new
    · exact owing.bounded receiver given old
    · cases List.mem_singleton.1 new
      exact (owing.waiting _ waiting).1
  | rearmed target =>
    have old : ∀ receiver result, .answered receiver result ∈ (before.rearm target).history →
        .answered receiver result ∈ before.history := by
      simp [LoadCompletion.rearm]
    refine ⟨fun receiver result member => ?_, ?_⟩
    · exact Nat.lt_succ_of_lt (owing.bounded receiver result (old _ _ member))
    · rintro receiver ⟨⟩
      refine ⟨Nat.lt_succ_self _, fun result member => ?_⟩
      exact Nat.lt_irrefl _ (owing.bounded _ result (old _ _ member))

theorem Since.new (target : υ) : Since (LoadCompletion.new target : LoadCompletion υ ε) [] where
  last := ⟨[], 0, rfl, by simp [LoadCompletion.new]⟩
  current := by simp

variable {newer : List (LoadEvent υ ε)}

/-- What happened since the last receiver goes on, or starts again with the next
receiver; the callbacks stay armed if the awaited page is not replaced under them. -/
theorem Since.step (since : Since before newer) (stepped : Stepped before act after) :
    ∃ newer', Since after newer' ∧
      (before.Undisturbed act → before.Armed newer → after.Armed newer') := by
  obtain ⟨older, made, split, sender⟩ := since.last
  cases stepped with
  | @reported url matched found =>
    refine ⟨newer ++ [.reported url], ⟨⟨older, made, by simp [split], sender⟩, ?_⟩, ?_⟩
    · simpa using since.current
    intro _ armed other member
    rcases found other member with old | ⟨rfl, same⟩
    · exact (armed other old).imp_right fun reported => List.mem_append_left _ reported
    · exact ⟨same, by simp⟩
  | idle kept =>
    refine ⟨newer, ⟨since.last, since.current⟩, ?_⟩
    intro _ armed other member
    exact armed other (kept member)
  | @answered _ _ receiver result kept =>
    refine ⟨newer ++ [.answered receiver result], ⟨⟨older, made, by simp [split], by simp⟩, ?_⟩, ?_⟩
    · simpa using since.current
    · intro _ armed other member
      exact (armed other (kept member)).imp_right fun reported => List.mem_append_left _ reported
  | rearmed target =>
    refine ⟨[], ⟨⟨before.history, before.receivers, rfl, ?_⟩, by simp⟩, ?_⟩
    · rintro waiting ⟨⟩
      rfl
    intro undisturbed _ other member
    have none : before.matched = [] := undisturbed target rfl
    rw [LoadCompletion.rearm, none] at member
    simp at member

/-- Answers of one act are given in time. -/
theorem Timely.step (justified : Justified Timely before.history) (owing : Owing before)
    (since : Since before newer) (stepped : Stepped before act after) :
    Justified Timely after.history := by
  cases stepped with
  | reported | rearmed target => exact justified.concat trivial
  | idle => exact justified
  | answered kept other waiting =>
    refine justified.concat ⟨(owing.waiting _ waiting).2, fun _ => ?_⟩
    obtain ⟨older, made, split, sender⟩ := since.last
    exact ⟨older, _, newer, sender _ waiting ▸ split, since.current⟩

/-- A success of one act is one of its own page, when the callbacks are armed. -/
theorem OwnPage.step (justified : Justified OwnPage before.history)
    (since : Since before newer) (armed : before.Armed newer)
    (stepped : Stepped before act after) : Justified OwnPage after.history := by
  cases stepped with
  | reported | rearmed target => exact justified.concat trivial
  | idle => exact justified
  | @answered _ _ receiver result kept other waiting success =>
    refine justified.concat ?_
    match result with
    | .error _ => trivial
    | .ok () =>
      obtain ⟨url, member⟩ := success rfl
      obtain ⟨rfl, reported⟩ := armed url member
      obtain ⟨older, made, split, sender⟩ := since.last
      exact ⟨older, _, newer, sender _ waiting ▸ split, reported⟩

variable [DecidableEq υ] {condition : LoadCompletion υ ε → LoadAct υ ε → Prop} {target : υ}

/-- Every run keeps its accounts, and the callbacks armed if no replacement comes between their
sections. -/
theorem Runs.since (runs : Runs condition target after) :
    Owing after ∧ Justified Timely after.history ∧
      ∃ newer, Since after newer ∧ ((∀ completion act, condition completion act →
        Undisturbed completion act) → after.Armed newer ∧ Justified OwnPage after.history) := by
  induction runs with
  | new =>
    refine ⟨.new target, Justified.concat .nil trivial, [], .new target, fun _ => ⟨?_, ?_⟩⟩
    · simp [Armed, LoadCompletion.new]
    · exact Justified.concat .nil trivial
  | step act runs met stepped ih =>
    obtain ⟨owing, timely, newer, since, armed⟩ := ih
    have stepped := step_cases stepped
    obtain ⟨newer', since', armed'⟩ := since.step stepped
    refine ⟨owing.step stepped, Timely.step timely owing since stepped, newer', since',
      fun undisturbed => ?_⟩
    obtain ⟨armed, own⟩ := armed undisturbed
    exact ⟨armed' (undisturbed _ _ met) armed, OwnPage.step own since armed stepped⟩

/-- Each receiver gets at most one answer and no success once it was replaced; and
where no page is replaced between the two sections of a callback, a success means
that the awaited page was reported since the receiver was made. -/
theorem answers_justified (runs : Runs condition target after) :
    Justified Timely after.history ∧
      ((∀ completion act, condition completion act → Undisturbed completion act) →
        Justified OwnPage after.history) := by
  obtain ⟨-, timely, newer, -, armed⟩ := runs.since
  exact ⟨timely, fun undisturbed => (armed undisturbed).2⟩

/-- Another page is awaited, reported and found; the new receiver gets the success. -/
theorem answers_justified_load :
    Justified OwnPage ([.created 0 false, .created 1 true, .reported true, .answered 1 (.ok ())] :
      List (LoadEvent Bool Unit)) := by
  have runs : Runs Undisturbed false (⟨⟨true, none⟩, [], 2,
      [.created 0 false, .created 1 true, .reported true, .answered 1 (.ok ())]⟩ :
      LoadCompletion Bool Unit) := by
    refine .step (.finishOk true) (.step (.matchesRequested true)
      (.step (.rearm true) .new ?_ rfl) ?_ rfl) ?_ rfl
    all_goals simp [Undisturbed, new]
  exact (answers_justified runs).2 fun _ _ met => met

/-- The awaited page is replaced after a callback found the old one: the new receiver gets its
success. -/
theorem answers_replaced :
    ∃ after : LoadCompletion Bool Unit, Runs (fun _ _ => True) false after ∧
      ¬ Justified OwnPage after.history := by
  have runs : Runs (fun _ _ => True) false (⟨⟨true, none⟩, [], 2,
      [.created 0 false, .reported false, .created 1 true, .answered 1 (.ok ())]⟩ :
      LoadCompletion Bool Unit) :=
    .step (.finishOk false) (.step (.rearm true) (.step (.matchesRequested false) .new trivial rfl)
      trivial rfl)
      trivial rfl
  refine ⟨_, runs, fun justified => ?_⟩
  obtain ⟨older, target, newer, split, reported⟩ :=
    justified [.created 0 false, .reported false, .created 1 true] (.answered 1 (.ok ())) [] rfl
  -- The receiver was made by the last of the three events, so nothing was reported since.
  match older with
  | [_, _] =>
    obtain ⟨-, -, -, rfl⟩ := split
    simp at reported
  | _ :: _ :: _ :: _ =>
    have length := congrArg List.length split
    simp at length

end LoadCompletion

end KernalApi.Webview
