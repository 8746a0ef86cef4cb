import GPush.Transition.Run
import Mathlib.Logic.Relation

/-!
# Programs beside an environment

A program is a tree of atomic actions on a state that it shares with an environment.  The
environment may move before and after every action.  An action that cannot be done is a fault.
-/

namespace GPush.Transition

/-- A program on the states `σ` with results in `α`. -/
inductive Program (σ α : Type) : Type 1
  | ret (a : α)
  | act {β : Type} (f : σ → Option (β × σ)) (next : β → Program σ α)

namespace Program

variable {σ α β : Type}

/-- One program after the other. -/
def bind : Program σ α → (α → Program σ β) → Program σ β
  | ret a, next => next a
  | act f middle, next => act f fun b => bind (middle b) next

instance : Monad (Program σ) where
  pure := ret
  bind := bind

/-- A program of one action. -/
def action (f : σ → Option (α × σ)) : Program σ α := act f ret

/-- The state is looked at. -/
def look (f : σ → α) : Program σ α := action fun s => some (f s, s)

/-- The program runs to its end without a move of the environment. -/
def run : Program σ α → σ → Option (α × σ)
  | ret a, s => some (a, s)
  | act f next, s => (f s).bind fun (b, t) => run (next b) t

section Rules

variable (env keeps : σ → σ → Prop)

/-- The environment does not disturb `assertion`. -/
def Stable (assertion : σ → Prop) : Prop := ∀ s t, assertion s → env s t → assertion t

/-- `goal` holds whatever the environment does first. -/
def Always (goal : σ → Prop) (s : σ) : Prop := ∀ t, Relation.ReflTransGen env s t → goal t

/-- Every action of the program can be done and meets `keeps`, and its result meets `post`. -/
def Safe : Program σ α → (α → σ → Prop) → σ → Prop
  | ret a, post => Always env (post a)
  | act f next, post =>
      Always env fun s => ∃ b t, f s = some (b, t) ∧ keeps s t ∧ Safe (next b) post t

/-- From every state that meets `pre` the program is safe. -/
def Meets (pre : σ → Prop) (p : Program σ α) (post : α → σ → Prop) : Prop :=
  ∀ s, pre s → p.Safe env keeps post s

end Rules

variable {env keeps : σ → σ → Prop} {pre : σ → Prop}

theorem Stable.always {assertion : σ → Prop} (stable : Stable env assertion) {s : σ}
    (holds : assertion s) : Always env assertion s := by
  intro t moves
  induction moves with
  | refl => exact holds
  | tail _ move ih => exact stable _ _ ih move

theorem Stable.ofExists {ι : Type} {assertion : ι → σ → Prop}
    (stable : ∀ i, Stable env (assertion i)) : Stable env fun s => ∃ i, assertion i s := by
  rintro s t ⟨i, holds⟩ move
  exact ⟨i, stable i s t holds move⟩

theorem Stable.and {fact : Prop} {assertion : σ → Prop} (stable : Stable env assertion) :
    Stable env fun s => fact ∧ assertion s := fun s t holds move =>
  ⟨holds.1, stable s t holds.2 move⟩

theorem Always.now {goal : σ → Prop} {s : σ} (always : Always env goal s) : goal s :=
  always s .refl

theorem Always.imp {goal weaker : σ → Prop} {s : σ} (always : Always env goal s)
    (weaken : ∀ t, goal t → weaker t) : Always env weaker s := fun t moves =>
  weaken t (always t moves)

theorem Always.moved {goal : σ → Prop} {s t : σ} (always : Always env goal s) (move : env s t) :
    Always env goal t := fun u moves => always u (.head move moves)

namespace Safe

variable {post : α → σ → Prop} {p : Program σ α} {s t : σ}

/-- The environment does not disturb a program that is safe. -/
theorem moved (safe : p.Safe env keeps post s) (move : env s t) : p.Safe env keeps post t := by
  cases p with
  | ret a => exact Always.moved safe move
  | act f next => exact Always.moved safe move

theorem mono {weaker : α → σ → Prop} (safe : p.Safe env keeps post s)
    (weaken : ∀ a s, post a s → weaker a s) : p.Safe env keeps weaker s := by
  induction p generalizing s with
  | ret a => exact Always.imp safe (weaken a)
  | act f next ih =>
      refine Always.imp safe fun s found => ?_
      rcases found with ⟨b, t, done, kept, rest⟩
      exact ⟨b, t, done, kept, ih b rest⟩

theorem bind {next : α → Program σ β} {post' : β → σ → Prop}
    (safe : p.Safe env keeps (fun a => (next a).Safe env keeps post') s) :
    (p >>= next).Safe env keeps post' s := by
  induction p generalizing s with
  | ret a => exact Always.now safe
  | act f middle ih =>
      refine Always.imp safe fun s found => ?_
      rcases found with ⟨b, t, done, kept, rest⟩
      exact ⟨b, t, done, kept, ih b rest⟩

end Safe

namespace Meets

variable {post : α → σ → Prop}

theorem pure {a : α} (stable : Stable env pre) (gives : ∀ s, pre s → post a s) :
    Meets env keeps pre (pure a) post := fun _ holds =>
  (stable.always holds).imp gives

theorem action {f : σ → Option (α × σ)} (stable : Stable env pre)
    (stablePost : ∀ a, Stable env (post a))
    (does : ∀ s, pre s → ∃ a t, f s = some (a, t) ∧ keeps s t ∧ post a t) :
    Meets env keeps pre (.action f) post := by
  intro s holds
  refine (stable.always holds).imp fun s holds => ?_
  obtain ⟨a, t, done, kept, meets⟩ := does s holds
  exact ⟨a, t, done, kept, (stablePost a).always meets⟩

theorem bind {p : Program σ α} {next : α → Program σ β} {post' : β → σ → Prop}
    (first : Meets env keeps pre p post) (second : ∀ a, Meets env keeps (post a) (next a) post') :
    Meets env keeps pre (p >>= next) post' := fun s holds =>
  .bind ((first s holds).mono second)

/-- A result that is not used. -/
theorem discard {p : Program σ α} {post' : Unit → σ → Prop} (meets : Meets env keeps pre p post)
    (stable : Stable env (post' ())) (gives : ∀ a s, post a s → post' () s) :
    Meets env keeps pre (discard p) post' := by
  have forgets : Meets env keeps pre (p >>= fun _ => ret ()) post' := by
    apply meets.bind
    intro a s holds
    exact stable.always (gives a s holds)
  exact forgets

theorem strengthen {p : Program σ α} {stronger : σ → Prop} (meets : Meets env keeps pre p post)
    (implies : ∀ s, stronger s → pre s) : Meets env keeps stronger p post := fun s holds =>
  meets s (implies s holds)

theorem weaken {p : Program σ α} {weaker : α → σ → Prop} (meets : Meets env keeps pre p post)
    (implies : ∀ a s, post a s → weaker a s) : Meets env keeps pre p weaker := fun s holds =>
  (meets s holds).mono implies

/-- What is known of a result does not need the state. -/
theorem ofFact {fact : Prop} {p : Program σ α} (meets : fact → Meets env keeps pre p post) :
    Meets env keeps (fun s => fact ∧ pre s) p post := fun s holds => meets holds.1 s holds.2

theorem ofExists {ι : Type} {p : Program σ α} {pres : ι → σ → Prop}
    (meets : ∀ i, Meets env keeps (pres i) p post) :
    Meets env keeps (fun s => ∃ i, pres i s) p post := by
  rintro s ⟨i, holds⟩
  exact meets i s holds

end Meets

/-! ## Programs that run alone -/

/-- Where the program runs to its end, its result meets `post`. -/
def Yields (pre : σ → Prop) (p : Program σ α) (post : α → σ → Prop) : Prop :=
  ∀ s a t, pre s → p.run s = some (a, t) → post a t

theorem run_bind (p : Program σ α) (next : α → Program σ β) (s : σ) :
    (p >>= next).run s = (p.run s).bind fun (a, t) => (next a).run t := by
  induction p generalizing s with
  | ret a => rfl
  | act f middle ih =>
      show (f s).bind _ = ((f s).bind _).bind _
      rw [Option.bind_assoc]
      exact congrArg (f s).bind (funext fun done => ih done.1 done.2)

/-- A program that is safe runs to its end. -/
theorem Safe.runs {post : α → σ → Prop} {p : Program σ α} {s : σ}
    (safe : p.Safe env keeps post s) : ∃ a t, p.run s = some (a, t) ∧ post a t := by
  induction p generalizing s with
  | ret a => exact ⟨a, s, rfl, Always.now safe⟩
  | act f next ih =>
      obtain ⟨b, t, done, -, rest⟩ := Always.now safe
      obtain ⟨a, u, ended, meets⟩ := ih b rest
      exact ⟨a, u, Option.bind_eq_some_iff.mpr ⟨(b, t), done, ended⟩, meets⟩

namespace Yields

variable {post : α → σ → Prop} {p : Program σ α}

theorem ofMeets (meets : Meets env keeps pre p post) : Yields pre p post := by
  intro s a t holds ended
  obtain ⟨a', t', ended', met⟩ := (meets s holds).runs
  rw [ended] at ended'
  cases ended'
  exact met

theorem pure {a : α} (gives : ∀ s, pre s → post a s) : Yields pre (pure a) post := by
  intro s b t holds ended
  cases ended
  exact gives s holds

theorem action {f : σ → Option (α × σ)}
    (does : ∀ s a t, pre s → f s = some (a, t) → post a t) : Yields pre (.action f) post := by
  intro s a t holds ended
  obtain ⟨⟨b, u⟩, done, rest⟩ := Option.bind_eq_some_iff.mp ended
  cases rest
  exact does s _ _ holds done

theorem bind {next : α → Program σ β} {post' : β → σ → Prop} (first : Yields pre p post)
    (second : ∀ a, Yields (post a) (next a) post') : Yields pre (p >>= next) post' := by
  intro s b u holds ended
  rw [run_bind] at ended
  obtain ⟨⟨a, t⟩, done, rest⟩ := Option.bind_eq_some_iff.mp ended
  exact second a t b u (first s a t holds done) rest

/-- A result that is not used. -/
theorem discard {post' : Unit → σ → Prop} (yields : Yields pre p post)
    (gives : ∀ a s, post a s → post' () s) : Yields pre (discard p) post' := by
  have forgets : Yields pre (p >>= fun _ => ret ()) post' :=
    yields.bind fun a => .pure (gives a)
  exact forgets

/-- What holds whatever the result is. -/
theorem ignore {post : σ → Prop} (yields : Yields pre p fun _ => post) :
    Yields pre (Functor.discard p) fun _ => post := yields.discard fun _ _ => id

theorem weaken {weaker : α → σ → Prop} (yields : Yields pre p post)
    (implies : ∀ a s, post a s → weaker a s) : Yields pre p weaker := fun s a t holds ended =>
  implies a t (yields s a t holds ended)

theorem strengthen {stronger : σ → Prop} (yields : Yields pre p post)
    (implies : ∀ s, stronger s → pre s) : Yields stronger p post := fun s a t holds ended =>
  yields s a t (implies s holds) ended

theorem both {post' : α → σ → Prop} (yields : Yields pre p post) (yields' : Yields pre p post') :
    Yields pre p fun a s => post a s ∧ post' a s := fun s a t holds ended =>
  ⟨yields s a t holds ended, yields' s a t holds ended⟩

/-- What is known of a result does not need the state. -/
theorem ofFact {fact : Prop} (yields : fact → Yields pre p post) :
    Yields (fun s => fact ∧ pre s) p post := fun s a t holds ended =>
  yields holds.1 s a t holds.2 ended

/-- What every state has that meets `pre` is known. -/
theorem known {fact : Prop} (implies : ∀ s, pre s → fact) (yields : fact → Yields pre p post) :
    Yields pre p post := fun s a t holds ended => yields (implies s holds) s a t holds ended

theorem ofExists {ι : Type} {pres : ι → σ → Prop} (yields : ∀ i, Yields (pres i) p post) :
    Yields (fun s => ∃ i, pres i s) p post := by
  rintro s a t ⟨i, holds⟩ ended
  exact yields i s a t holds ended

end Yields

end Program

/-! ## A machine that runs programs -/

/-- The shared state, the rest of the program that runs, and whether there was a fault. -/
structure Machine (σ : Type) where
  shared : σ
  program : Program σ Unit
  faulted : Bool

/-- What happens: the environment moves, a program is begun, or the program goes on. -/
inductive Happens (ε : Type)
  | env
  | begin (task : ε)
  | goesOn

namespace Machine

variable {σ ε : Type}

/-- The step relation.  A program is begun when the one before it has ended. -/
inductive Step (env : σ → σ → Prop) (programs : ε → Program σ Unit) :
    LTS (Machine σ) (Happens ε)
  | env {s t : σ} {p : Program σ Unit} {faulted : Bool} : env s t →
      Step env programs ⟨s, p, faulted⟩ .env ⟨t, p, faulted⟩
  | begin {s : σ} {faulted : Bool} (task : ε) :
      Step env programs ⟨s, .ret (), faulted⟩ (.begin task) ⟨s, programs task, faulted⟩
  | act {s t : σ} {β : Type} {b : β} {f : σ → Option (β × σ)} {next : β → Program σ Unit}
      {faulted : Bool} : f s = some (b, t) →
      Step env programs ⟨s, .act f next, faulted⟩ .goesOn ⟨t, next b, faulted⟩
  | fault {s : σ} {β : Type} {f : σ → Option (β × σ)} {next : β → Program σ Unit}
      {faulted : Bool} : f s = none →
      Step env programs ⟨s, .act f next, faulted⟩ .goesOn ⟨s, .ret (), true⟩

/-- Nothing has failed, and what is left of the program is safe. -/
structure Sound (env keeps : σ → σ → Prop) (inv : σ → Prop) (m : Machine σ) : Prop where
  works : m.faulted = false
  safe : m.program.Safe env keeps (fun _ => inv) m.shared

variable {env keeps : σ → σ → Prop} {inv : σ → Prop} {programs : ε → Program σ Unit}
  {m m' : Machine σ} {e : Happens ε}

/-- The step lemma. -/
theorem Sound.step (meets : ∀ task, Program.Meets env keeps inv (programs task) fun _ => inv)
    (sound : m.Sound env keeps inv) (taken : Step env programs m e m') :
    m'.Sound env keeps inv := by
  rcases sound with ⟨works, safe⟩
  cases taken with
  | env move => exact ⟨works, safe.moved move⟩
  | begin task => exact ⟨works, meets task _ safe.now⟩
  | act done =>
      obtain ⟨b', t', done', -, rest⟩ := safe.now
      rw [done] at done'
      cases done'
      exact ⟨works, rest⟩
  | fault failed =>
      obtain ⟨b', t', done', -, -⟩ := safe.now
      rw [failed] at done'
      cases done'

/-- The shared state changes by a move of the environment or by an action that keeps what the
programs have to keep. -/
theorem Sound.changes (sound : m.Sound env keeps inv) (taken : Step env programs m e m') :
    m'.shared = m.shared ∨ env m.shared m'.shared ∨ keeps m.shared m'.shared := by
  rcases sound with ⟨works, safe⟩
  cases taken with
  | env move => exact Or.inr (Or.inl move)
  | begin task => exact Or.inl rfl
  | act done =>
      obtain ⟨b', t', done', kept, -⟩ := safe.now
      rw [done] at done'
      cases done'
      exact Or.inr (Or.inr kept)
  | fault failed => exact Or.inl rfl

/-- The run rule. -/
theorem sound_of_reachable (stable : Program.Stable env inv)
    (meets : ∀ task, Program.Meets env keeps inv (programs task) fun _ => inv) {s : σ}
    (initial : inv s) (reachable : Reachable (Step env programs) ⟨s, .ret (), false⟩ m) :
    m.Sound env keeps inv := by
  have start : Sound env keeps inv ⟨s, .ret (), false⟩ := ⟨rfl, stable.always initial⟩
  exact reachable.invariant start fun _ _ _ sound taken => sound.step meets taken

/-- What the environment and the programs keep holds in every state that is reached. -/
theorem good_of_reachable {good : σ → Prop} (stable : Program.Stable env inv)
    (meets : ∀ task, Program.Meets env keeps inv (programs task) fun _ => inv) {s : σ}
    (initial : inv s) (starts : good s) (moves : Program.Stable env good)
    (kept : ∀ s t, keeps s t → good t)
    (reachable : Reachable (Step env programs) ⟨s, .ret (), false⟩ m) : good m.shared := by
  have start : Sound env keeps inv ⟨s, .ret (), false⟩ := ⟨rfl, stable.always initial⟩
  have step : ∀ m e m', m.Sound env keeps inv ∧ good m.shared → Step env programs m e m' →
      m'.Sound env keeps inv ∧ good m'.shared := by
    rintro m e m' ⟨sound, holds⟩ taken
    refine ⟨sound.step meets taken, ?_⟩
    rcases sound.changes taken with same | move | keeping
    · rwa [same]
    · exact moves _ _ holds move
    · exact kept _ _ keeping
  obtain ⟨events, run⟩ := reachable
  have both : m.Sound env keeps inv ∧ good m.shared := by
    induction run with
    | refl => exact ⟨start, starts⟩
    | snoc _ _ taken ih => exact step _ _ _ ih taken
  exact both.2

/-- A program that runs to its end is a run of the machine. -/
theorem reachable_of_run (env : σ → σ → Prop) (programs : ε → Program σ Unit)
    {p : Program σ Unit} {s t : σ} {faulted : Bool} (ended : p.run s = some ((), t)) :
    Reachable (Step env programs) ⟨s, p, faulted⟩ ⟨t, .ret (), faulted⟩ := by
  induction p generalizing s with
  | ret a =>
      cases ended
      exact ⟨[], Run.refl⟩
  | act f next ih =>
      obtain ⟨⟨b, middle⟩, done, rest⟩ := Option.bind_eq_some_iff.mp ended
      obtain ⟨events, run⟩ := ih b rest
      exact ⟨_, Run.cons trivial (.act done) run⟩

/-- A task from its beginning to its end. -/
theorem reachable_of_task (env : σ → σ → Prop) {task : ε} {s t : σ} {faulted : Bool}
    (ended : (programs task).run s = some ((), t)) :
    Reachable (Step env programs) ⟨s, .ret (), faulted⟩ ⟨t, .ret (), faulted⟩ := by
  obtain ⟨events, run⟩ := reachable_of_run env programs ended
  exact ⟨_, Run.cons trivial (.begin task) run⟩

end Machine

end GPush.Transition
