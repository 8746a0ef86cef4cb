import Mathlib.Data.List.Basic

/-!
# Guarded runs of labelled transition relations

A system is a labelled step relation.  A run records the labels of its steps,
and every step of a guarded run meets a condition on the state it leaves and on
its label.  The guard that always holds gives plain reachability.
-/

namespace GPush.Transition

universe u v

/-- A labelled step relation on the states `σ` with events `ε`. -/
abbrev LTS (σ : Type u) (ε : Type v) := σ → ε → σ → Prop

/-- Finite runs all of whose steps meet `guard` in the state they leave. -/
inductive Run {σ : Type u} {ε : Type v} (step : LTS σ ε) (guard : σ → ε → Prop)
    (source : σ) : List ε → σ → Prop
  | refl : Run step guard source [] source
  | snoc {events : List ε} {middle target : σ} {event : ε} :
      Run step guard source events middle → guard middle event →
      step middle event target → Run step guard source (events ++ [event]) target

/-- The guard that every step meets. -/
def anyStep {σ : Type u} {ε : Type v} : σ → ε → Prop := fun _ _ => True

/-- `target` is reached from `source` by finitely many steps. -/
def Reachable {σ : Type u} {ε : Type v} (step : LTS σ ε) (source target : σ) : Prop :=
  ∃ events, Run step anyStep source events target

namespace Run

variable {σ : Type u} {ε : Type v} {step : LTS σ ε} {guard : σ → ε → Prop}

theorem single {source target : σ} {event : ε} (allowed : guard source event)
    (taken : step source event target) : Run step guard source [event] target :=
  Run.snoc Run.refl allowed taken

theorem trans {source middle target : σ} {first second : List ε}
    (firstRun : Run step guard source first middle)
    (secondRun : Run step guard middle second target) :
    Run step guard source (first ++ second) target := by
  induction secondRun with
  | refl => simpa using firstRun
  | snoc _ allowed taken ih =>
      rw [← List.append_assoc]
      exact Run.snoc ih allowed taken

/-- A step put in front of a run. -/
theorem cons {source middle target : σ} {event : ε} {events : List ε}
    (allowed : guard source event) (taken : step source event middle)
    (rest : Run step guard middle events target) :
    Run step guard source (event :: events) target :=
  trans (single allowed taken) rest

/-- A run can be cut at each of its steps. -/
theorem split {source target : σ} {before after : List ε} {event : ε}
    (run : Run step guard source (before ++ event :: after) target) :
    ∃ middle next, Run step guard source before middle ∧ guard middle event ∧
      step middle event next ∧ Run step guard next after target := by
  generalize eventsEq : before ++ event :: after = events at run
  induction run generalizing after with
  | refl => simp at eventsEq
  | @snoc events middle target last run allowed taken ih =>
      rcases List.eq_nil_or_concat after with rfl | ⟨after, final, rfl⟩
      · obtain ⟨rfl, sameEvent⟩ := List.append_inj' eventsEq rfl
        cases sameEvent
        exact ⟨middle, target, run, allowed, taken, refl⟩
      · rw [List.concat_eq_append, ← List.cons_append, ← List.append_assoc] at eventsEq
        obtain ⟨sameEvents, sameEvent⟩ := List.append_inj' eventsEq rfl
        cases sameEvent
        obtain ⟨source, next, firstRun, allowed', taken', rest⟩ := ih sameEvents
        rw [List.concat_eq_append]
        exact ⟨source, next, firstRun, allowed', taken', snoc rest allowed taken⟩

theorem eq_of_nil {source target : σ} (run : Run step guard source [] target) :
    target = source := by
  generalize eventsEq : ([] : List ε) = events at run
  cases run with
  | refl => rfl
  | snoc => simp at eventsEq

/-- The first step of a run. -/
theorem uncons {source target : σ} {event : ε} {events : List ε}
    (run : Run step guard source (event :: events) target) :
    ∃ middle, guard source event ∧ step source event middle ∧
      Run step guard middle events target := by
  obtain ⟨first, middle, nothing, allowed, taken, rest⟩ := @split _ _ _ _ _ _ [] _ _ run
  obtain rfl := nothing.eq_of_nil
  exact ⟨middle, allowed, taken, rest⟩

/-- A weaker guard admits the same run. -/
theorem mono {weaker : σ → ε → Prop} (weaken : ∀ s e, guard s e → weaker s e)
    {source target : σ} {events : List ε} (run : Run step guard source events target) :
    Run step weaker source events target := by
  induction run with
  | refl => exact Run.refl
  | snoc _ allowed taken ih => exact Run.snoc ih (weaken _ _ allowed) taken

/-- What all events of a run meet can be put into its guard. -/
theorem with_events {allowed : ε → Prop} {source target : σ} {events : List ε}
    (run : Run step guard source events target) (all : ∀ e ∈ events, allowed e) :
    Run step (fun s e => guard s e ∧ allowed e) source events target := by
  induction run with
  | refl => exact Run.refl
  | snoc _ meets taken ih =>
      have last := all _ (List.mem_append_right _ (List.mem_singleton_self _))
      exact Run.snoc (ih fun e member => all e (List.mem_append_left _ member)) ⟨meets, last⟩ taken

/-- Every guarded run is a run. -/
theorem reachable {source target : σ} {events : List ε}
    (run : Run step guard source events target) : Reachable step source target :=
  ⟨events, run.mono fun _ _ _ => trivial⟩

/-- The induction rule: what holds initially and is kept by every step that
meets the guard holds at the end of every guarded run. -/
theorem invariant {inv : σ → Prop} {source target : σ} {events : List ε}
    (initial : inv source)
    (preserved : ∀ s e t, inv s → guard s e → step s e t → inv t)
    (run : Run step guard source events target) : inv target := by
  induction run with
  | refl => exact initial
  | snoc _ allowed taken ih => exact preserved _ _ _ ih allowed taken

/-- Where the guard is exactly what keeps a property, the guarded runs are those that have
the property in all their states. -/
theorem guarded_iff {inv : σ → Prop} {source target : σ} {events : List ε} (initial : inv source)
    (exact : ∀ s e t, Reachable step source s → inv s → step s e t → (inv t ↔ guard s e)) :
    Run step guard source events target ↔
      Run step (fun s _ => inv s) source events target ∧ inv target := by
  constructor
  · intro run
    induction run with
    | refl => exact ⟨refl, initial⟩
    | snoc run allowed taken ih =>
        obtain ⟨through, holds⟩ := ih
        exact ⟨snoc through holds taken, (exact _ _ _ run.reachable holds taken).mpr allowed⟩
  · rintro ⟨through, holds⟩
    induction through with
    | refl => exact refl
    | snoc through here taken ih =>
        exact snoc (ih here) ((exact _ _ _ through.reachable here taken).mp holds) taken

/-- The simulation rule: where every guarded step of one system is matched by a
step of another with the same label, every guarded run is matched by a run. -/
theorem simulate {τ : Type*} {abstract : LTS τ ε} {related : σ → τ → Prop} {source target : σ}
    {initial : τ} {events : List ε} (start : related source initial)
    (matched : ∀ s t e s', related s t → guard s e → step s e s' →
      ∃ t', abstract t e t' ∧ related s' t')
    (run : Run step guard source events target) :
    ∃ t, Run abstract anyStep initial events t ∧ related target t := by
  induction run with
  | refl => exact ⟨initial, Run.refl, start⟩
  | snoc _ allowed taken ih =>
      obtain ⟨t, abstractRun, relatedHere⟩ := ih
      obtain ⟨t', abstractStep, relatedNext⟩ := matched _ t _ _ relatedHere allowed taken
      exact ⟨t', Run.snoc abstractRun trivial abstractStep, relatedNext⟩

/-- Executing a list of events step by step gives a run. -/
theorem of_foldlM {next : σ → ε → Option σ}
    (sound : ∀ s e t, next s e = some t → guard s e ∧ step s e t) {source target : σ}
    {events : List ε} (played : events.foldlM next source = some target) :
    Run step guard source events target := by
  induction events generalizing source with
  | nil =>
      obtain rfl : source = target := Option.some.inj played
      exact Run.refl
  | cons event events ih =>
      rw [List.foldlM_cons] at played
      obtain ⟨middle, nextEq, rest⟩ := Option.bind_eq_some_iff.mp played
      obtain ⟨allowed, taken⟩ := sound _ _ _ nextEq
      exact Run.cons allowed taken (ih rest)

end Run

theorem Reachable.trans {σ : Type u} {ε : Type v} {step : LTS σ ε} {source middle target : σ}
    (first : Reachable step source middle) (second : Reachable step middle target) :
    Reachable step source target := by
  obtain ⟨events, run⟩ := first
  obtain ⟨events', run'⟩ := second
  exact ⟨_, run.trans run'⟩

/-- The induction rule for plain reachability. -/
theorem Reachable.invariant {σ : Type u} {ε : Type v} {step : LTS σ ε} {inv : σ → Prop}
    {source target : σ} (initial : inv source)
    (preserved : ∀ s e t, inv s → step s e t → inv t)
    (reachable : Reachable step source target) : inv target := by
  obtain ⟨events, run⟩ := reachable
  exact run.invariant initial fun s e t holds _ taken => preserved s e t holds taken

end GPush.Transition
