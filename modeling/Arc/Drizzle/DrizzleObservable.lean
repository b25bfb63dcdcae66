import Arc.Foundation.Machine
import Mathlib.Data.List.Nodup
import Mathlib.Logic.Function.Basic

/-!
# The observations of a read-model scope

An observation is lazy: a session is started by the first subscription or by a read of the current
value, and such a primed session is adopted by the next subscription. The scope tracks an
observation from when a session of it starts until its last session ends, so that disposing the
scope ends them all. A session is known here by its number, and may end by itself; what it reads
and emits is left out.
-/

namespace Arc.Drizzle

/-- `sessions` are the live sessions of each observation, `owner` tells whose a session is,
`tracked` are the observations that the scope has to close. The sessions that have ended and those
that were adopted are kept too. -/
structure DrizzleObservations where
  observables : ℕ := 0
  closed : ℕ → Bool := fun _ => false
  prime : ℕ → Option ℕ := fun _ => none
  sessions : ℕ → List ℕ := fun _ => []
  started : ℕ := 0
  owner : ℕ → ℕ := fun _ => 0
  ended : ℕ → Bool := fun _ => false
  adopted : List ℕ := []
  tracked : List ℕ := []
  disposed : Bool := false

inductive ObservationEvent
  | observe
  | subscribe (observable : ℕ) (opens : Bool)
  | current (observable : ℕ) (opens : Bool)
  | ends (session : ℕ)
  | close (observable : ℕ)
  | dispose
  deriving DecidableEq, Repr

namespace DrizzleObservations

/-- `start`: a session that could be opened is live, and its observation tracked. -/
def start (enabled : Bool) (s : DrizzleObservations) (observable : ℕ) (opens : Bool) :
    Option (DrizzleObservations × ℕ) :=
  if s.disposed || !enabled || !opens then none
  else
    some ({ s with
      started := s.started + 1
      owner := Function.update s.owner s.started observable
      ended := Function.update s.ended s.started false
      sessions := Function.update s.sessions observable (s.sessions observable ++ [s.started])
      tracked := if observable ∈ s.tracked then s.tracked else s.tracked ++ [observable] },
      s.started)

def adopt (s : DrizzleObservations) (observable session : ℕ) : DrizzleObservations :=
  { s with
    prime := Function.update s.prime observable none
    adopted := s.adopted ++ [session] }

/-- A subscription adopts the primed session, or starts one. -/
def subscribe (enabled : Bool) (s : DrizzleObservations) (observable : ℕ) (opens : Bool) :
    DrizzleObservations :=
  if s.closed observable || s.disposed || !enabled then s
  else
    match s.prime observable with
    | some session => s.adopt observable session
    | none =>
        match s.start enabled observable opens with
        | some (started, session) => started.adopt observable session
        | none => s

/-- A read of the current value primes a session. -/
def current (enabled : Bool) (s : DrizzleObservations) (observable : ℕ) (opens : Bool) :
    DrizzleObservations :=
  if s.closed observable then s
  else
    match s.prime observable with
    | some _ => s
    | none =>
        match s.start enabled observable opens with
        | some (started, session) =>
            { started with prime := Function.update started.prime observable (some session) }
        | none => s

/-- The close of a session, once: the last one of an observation makes it idle. -/
def ends (s : DrizzleObservations) (session : ℕ) : DrizzleObservations :=
  if s.ended session then s
  else
    let left := (s.sessions (s.owner session)).erase session
    { s with
      ended := Function.update s.ended session true
      sessions := Function.update s.sessions (s.owner session) left
      tracked := if left = [] then s.tracked.erase (s.owner session) else s.tracked }

def endAll (s : DrizzleObservations) : List ℕ → DrizzleObservations
  | [] => s
  | session :: rest => endAll (s.ends session) rest

def close (s : DrizzleObservations) (observable : ℕ) : DrizzleObservations :=
  if s.closed observable then s
  else
    let ended := { s with closed := Function.update s.closed observable true }.endAll
      (s.sessions observable)
    { ended with prime := Function.update ended.prime observable none }

def closeAll (s : DrizzleObservations) : List ℕ → DrizzleObservations
  | [] => s
  | observable :: rest => closeAll (s.close observable) rest

/-- `[Symbol.asyncDispose]` of the scope -/
def dispose (s : DrizzleObservations) : DrizzleObservations :=
  if s.disposed then s
  else { { s with disposed := true }.closeAll s.tracked with tracked := [] }

def step (enabled : Bool) (s : DrizzleObservations) : ObservationEvent → Option DrizzleObservations
  | .observe => some { s with observables := s.observables + 1 }
  | .subscribe observable opens =>
      if observable < s.observables then some (s.subscribe enabled observable opens) else none
  | .current observable opens =>
      if observable < s.observables then some (s.current enabled observable opens) else none
  | .ends session => if session < s.started then some (s.ends session) else none
  | .close observable =>
      if observable < s.observables then some (s.close observable) else none
  | .dispose => some s.dispose

end DrizzleObservations

/-- Every run of the observations of a scope, where observing is enabled or not. -/
def drizzleObservations (enabled : Bool) : Machine DrizzleObservations ObservationEvent where
  init := {}
  step := DrizzleObservations.step enabled

namespace DrizzleObservations

variable {enabled : Bool} {s t : DrizzleObservations} {observable session : ℕ}

/-- What every step keeps, the steps of a close included. -/
structure Sessions (s : DrizzleObservations) : Prop where
  live : ∀ observable session, session ∈ s.sessions observable ↔
    session < s.started ∧ s.owner session = observable ∧ s.ended session = false
  nodup : ∀ observable, (s.sessions observable).Nodup
  tracked : ∀ observable, observable ∈ s.tracked ↔ s.sessions observable ≠ []
  trackedOnce : s.tracked.Nodup
  primed : ∀ observable session, s.prime observable = some session →
    session < s.started ∧ s.owner session = observable ∧ session ∉ s.adopted
  adopted : ∀ session ∈ s.adopted, session < s.started
  once : s.adopted.Nodup
  idle : ∀ session, session < s.started → s.ended session = false →
    session ∈ s.adopted ∨ s.prime (s.owner session) = some session

/-- The observations of a scope in each state of a run. -/
structure ObservationLaw (s : DrizzleObservations) : Prop extends Sessions s where
  closed : ∀ observable, s.closed observable = true →
    s.sessions observable = [] ∧ s.prime observable = none
  disposed : s.disposed = true → s.tracked = []

/-! ### The end of a session -/

theorem ends_sessions (h : Sessions s) (session observable : ℕ) :
    (s.ends session).sessions observable = (s.sessions observable).erase session := by
  by_cases hended : s.ended session = true
  · have hnot : session ∉ s.sessions observable := fun hmem => by
      have hlive := ((h.live observable session).1 hmem).2.2
      rw [hended] at hlive
      cases hlive
    rw [ends, if_pos hended, List.erase_of_not_mem hnot]
  · rw [ends, if_neg hended]
    by_cases howner : observable = s.owner session
    · subst howner
      exact Function.update_self _ _ _
    · have hnot : session ∉ s.sessions observable := fun hmem =>
        howner ((h.live observable session).1 hmem).2.1.symm
      dsimp only
      rw [Function.update_of_ne howner, List.erase_of_not_mem hnot]

theorem ends_ended (s : DrizzleObservations) (session other : ℕ) :
    (s.ends session).ended other = true ↔ other = session ∨ s.ended other = true := by
  by_cases hended : s.ended session = true
  · rw [ends, if_pos hended]
    refine ⟨.inr, ?_⟩
    rintro (rfl | hother)
    · exact hended
    · exact hother
  · rw [ends, if_neg hended]
    by_cases hother : other = session
    · simp [hother]
    · simp [hother]

theorem ends_frame (s : DrizzleObservations) (session : ℕ) :
    (s.ends session).started = s.started ∧ (s.ends session).owner = s.owner ∧
      (s.ends session).prime = s.prime ∧ (s.ends session).adopted = s.adopted ∧
      (s.ends session).closed = s.closed ∧ (s.ends session).disposed = s.disposed := by
  unfold ends
  split <;> exact ⟨rfl, rfl, rfl, rfl, rfl, rfl⟩

theorem ends_tracked (h : Sessions s) (session observable : ℕ) :
    observable ∈ (s.ends session).tracked ↔ (s.sessions observable).erase session ≠ [] := by
  by_cases hended : s.ended session = true
  · have hnot : session ∉ s.sessions observable := fun hmem => by
      have hlive := ((h.live observable session).1 hmem).2.2
      rw [hended] at hlive
      cases hlive
    rw [ends, if_pos hended, List.erase_of_not_mem hnot, h.tracked]
  · rw [ends, if_neg hended]
    by_cases howner : observable = s.owner session
    · subst howner
      by_cases hlast : (s.sessions (s.owner session)).erase session = []
      · simp [hlast, h.trackedOnce.mem_erase_iff]
      · have hsome : s.sessions (s.owner session) ≠ [] := fun hnil => by
          rw [hnil] at hlast
          exact hlast rfl
        simp [hlast, h.tracked, hsome]
    · have hnot : session ∉ s.sessions observable := fun hmem =>
        howner ((h.live observable session).1 hmem).2.1.symm
      rw [List.erase_of_not_mem hnot]
      dsimp only
      split
      · rw [List.mem_erase_of_ne howner, h.tracked]
      · rw [h.tracked]

theorem Sessions.ends (h : Sessions s) (session : ℕ) : Sessions (s.ends session) := by
  obtain ⟨hstarted, howner, hprime, hadopted, -, -⟩ := ends_frame s session
  refine
    { live := fun observable other => ?_
      nodup := fun observable => ?_
      tracked := fun observable => ?_
      trackedOnce := ?_
      primed := ?_
      adopted := ?_
      once := ?_
      idle := fun other hother hliving => ?_ }
  · have hended := ends_ended s session other
    have hlive := h.live observable other
    rw [ends_sessions h, (h.nodup observable).mem_erase_iff, hstarted, howner, hlive]
    grind
  · rw [ends_sessions h]
    exact (h.nodup observable).erase session
  · rw [ends_tracked h, ends_sessions h]
  · unfold DrizzleObservations.ends
    split
    · exact h.trackedOnce
    · dsimp only
      split
      · exact h.trackedOnce.erase _
      · exact h.trackedOnce
  · rw [hstarted, howner, hprime, hadopted]
    exact h.primed
  · rw [hstarted, hadopted]
    exact h.adopted
  · rw [hadopted]
    exact h.once
  · have hended := ends_ended s session other
    rw [hstarted] at hother
    rw [hadopted, hprime, howner]
    refine h.idle other hother ?_
    by_contra hgone
    rw [Bool.not_eq_false] at hgone
    rw [hended.2 (.inr hgone)] at hliving
    cases hliving

/-! ### Closing -/

/-- What only ends sessions. -/
structure Ended (s t : DrizzleObservations) : Prop where
  started : t.started = s.started
  owner : t.owner = s.owner
  adopted : t.adopted = s.adopted
  ended : ∀ session, s.ended session = true → t.ended session = true
  prime : t.prime = s.prime
  closed : t.closed = s.closed
  disposed : t.disposed = s.disposed

theorem endAll_ended (sessions : List ℕ) (s : DrizzleObservations) :
    Ended s (s.endAll sessions) ∧
      ∀ session ∈ sessions, (s.endAll sessions).ended session = true := by
  induction sessions generalizing s with
  | nil => exact ⟨⟨rfl, rfl, rfl, fun _ h => h, rfl, rfl, rfl⟩, by simp⟩
  | cons session rest ih =>
      obtain ⟨hstarted, howner, hprime, hadopted, hclosed, hdisposed⟩ := ends_frame s session
      obtain ⟨hrest, hall⟩ := ih (s.ends session)
      refine ⟨⟨hrest.started.trans hstarted, hrest.owner.trans howner,
        hrest.adopted.trans hadopted,
        fun other hother => hrest.ended other ((ends_ended s session other).2 (.inr hother)),
        hrest.prime.trans hprime, hrest.closed.trans hclosed, hrest.disposed.trans hdisposed⟩,
        fun other hother => ?_⟩
      rcases List.mem_cons.1 hother with rfl | hlater
      · exact hrest.ended other ((ends_ended s other other).2 (.inl rfl))
      · exact hall other hlater

theorem Sessions.endAll (h : Sessions s) (sessions : List ℕ) : Sessions (s.endAll sessions) := by
  induction sessions generalizing s with
  | nil => exact h
  | cons session rest ih => exact ih (h.ends session)

/-- Without a live session there is none later, as long as none is started. -/
theorem Ended.sessions_subset (hended : Ended s t) (hs : Sessions s) (ht : Sessions t)
    (hmem : session ∈ t.sessions observable) : session ∈ s.sessions observable := by
  obtain ⟨hknown, howner, hliving⟩ := (ht.live observable session).1 hmem
  rw [hended.started] at hknown
  rw [hended.owner] at howner
  refine (hs.live observable session).2 ⟨hknown, howner, ?_⟩
  by_contra hgone
  rw [Bool.not_eq_false] at hgone
  rw [hended.ended session hgone] at hliving
  cases hliving

/-- What a step that closes observations does to all of them. -/
structure Closing (s t : DrizzleObservations) : Prop where
  disposed : t.disposed = s.disposed
  sessions : ∀ observable, s.sessions observable = [] → t.sessions observable = []
  prime : ∀ observable, s.prime observable = none → t.prime observable = none
  closed : ∀ observable, t.closed observable = true → s.closed observable = true ∨
    t.sessions observable = [] ∧ t.prime observable = none

/-- An observation is closed only without a session. -/
def ClosedClean (s : DrizzleObservations) : Prop :=
  ∀ observable, s.closed observable = true →
    s.sessions observable = [] ∧ s.prime observable = none

theorem Closing.clean (h : Closing s t) (hs : ClosedClean s) : ClosedClean t := by
  intro observable hclosed
  rcases h.closed observable hclosed with hbefore | hnow
  · obtain ⟨hsessions, hprime⟩ := hs observable hbefore
    exact ⟨h.sessions observable hsessions, h.prime observable hprime⟩
  · exact hnow

theorem Closing.trans {u : DrizzleObservations} (hst : Closing s t) (htu : Closing t u) :
    Closing s u where
  disposed := htu.disposed.trans hst.disposed
  sessions observable hnone := htu.sessions observable (hst.sessions observable hnone)
  prime observable hnone := htu.prime observable (hst.prime observable hnone)
  closed observable hclosed := by
    rcases htu.closed observable hclosed with hbefore | hnow
    · rcases hst.closed observable hbefore with hfirst | ⟨hsessions, hprime⟩
      · exact .inl hfirst
      · exact .inr ⟨htu.sessions observable hsessions, htu.prime observable hprime⟩
    · exact .inr hnow

theorem Sessions.close (h : Sessions s) (hclean : ClosedClean s) (observable : ℕ) :
    Sessions (s.close observable) ∧ Closing s (s.close observable) ∧
      (s.close observable).sessions observable = [] := by
  unfold DrizzleObservations.close
  by_cases hclosed : s.closed observable = true
  · rw [if_pos hclosed]
    exact ⟨h, ⟨rfl, fun _ hnone => hnone, fun _ hnone => hnone, fun _ => .inl⟩,
      (hclean observable hclosed).1⟩
  · rw [if_neg hclosed]
    let marked : DrizzleObservations :=
      { s with closed := Function.update s.closed observable true }
    have hmarked : Sessions marked := { h with }
    have hkept : Sessions (marked.endAll (s.sessions observable)) :=
      hmarked.endAll (s.sessions observable)
    obtain ⟨hended, hall⟩ := endAll_ended (s.sessions observable) marked
    have hsubset : ∀ other session,
        session ∈ (marked.endAll (s.sessions observable)).sessions other →
          session ∈ s.sessions other := fun other session hmem =>
      hended.sessions_subset hmarked hkept hmem
    have hempty : (marked.endAll (s.sessions observable)).sessions observable = [] := by
      refine List.eq_nil_iff_forall_not_mem.2 fun session hmem => ?_
      have hliving := ((hkept.live observable session).1 hmem).2.2
      rw [hall session (hsubset observable session hmem)] at hliving
      cases hliving
    refine ⟨{ hkept with primed := ?_, idle := ?_ }, ⟨hended.disposed, ?_, ?_, ?_⟩, hempty⟩
    · intro other session hprime
      by_cases hother : other = observable
      · subst hother
        simp at hprime
      · refine hkept.primed other session ?_
        simpa [Function.update_of_ne hother] using hprime
    · intro session hknown hliving
      rcases hkept.idle session hknown hliving with hadopted | hprime
      · exact .inl hadopted
      · by_cases hown : (marked.endAll (s.sessions observable)).owner session = observable
        · have hmem := (hkept.live observable session).2 ⟨hknown, hown, hliving⟩
          rw [hempty] at hmem
          cases hmem
        · refine .inr ?_
          dsimp only
          rw [Function.update_of_ne hown]
          exact hprime
    · intro other hnone
      refine List.eq_nil_iff_forall_not_mem.2 fun session hmem => ?_
      have hbefore := hsubset other session hmem
      rw [hnone] at hbefore
      cases hbefore
    · intro other hnone
      by_cases hother : other = observable
      · simp [hother]
      · dsimp only
        rw [Function.update_of_ne hother, hended.prime]
        exact hnone
    · intro other hothers
      by_cases hother : other = observable
      · subst hother
        exact .inr ⟨hempty, by simp⟩
      · have hbefore : marked.closed other = true := hended.closed ▸ hothers
        exact .inl (by simpa [marked, hother] using hbefore)

theorem Sessions.closeAll (h : Sessions s) (hclean : ClosedClean s) (observables : List ℕ) :
    Sessions (s.closeAll observables) ∧ Closing s (s.closeAll observables) ∧
      ∀ observable ∈ observables, (s.closeAll observables).sessions observable = [] := by
  induction observables generalizing s with
  | nil =>
      exact ⟨h, ⟨rfl, fun _ hnone => hnone, fun _ hnone => hnone, fun _ => .inl⟩, by simp⟩
  | cons observable rest ih =>
      obtain ⟨hfirst, hclosing, hempty⟩ := h.close hclean observable
      obtain ⟨hrest, hlater, hall⟩ := ih hfirst (hclosing.clean hclean)
      refine ⟨hrest, hclosing.trans hlater, fun other hother => ?_⟩
      rcases List.mem_cons.1 hother with rfl | hmem
      · exact hlater.sessions other hempty
      · exact hall other hmem

/-! ### Starting -/

theorem Sessions.start (h : Sessions s) {opens : Bool}
    (hstart : s.start enabled observable opens = some (t, session)) :
    session = s.started ∧ s.disposed = false ∧ t.started = s.started + 1 ∧
      t.owner = Function.update s.owner s.started observable ∧ t.prime = s.prime ∧
      t.adopted = s.adopted ∧ t.closed = s.closed ∧ t.disposed = s.disposed ∧
      t.ended = Function.update s.ended s.started false ∧
      t.sessions = Function.update s.sessions observable (s.sessions observable ++ [s.started]) ∧
      t.tracked.Nodup ∧ ∀ other, other ∈ t.tracked ↔ other = observable ∨ other ∈ s.tracked := by
  unfold DrizzleObservations.start at hstart
  split at hstart
  · cases hstart
  · rename_i hallowed
    cases hstart
    refine ⟨rfl, ?_, rfl, rfl, rfl, rfl, rfl, rfl, rfl, rfl, ?_, fun other => ?_⟩
    · by_contra hdisposed
      simp [hdisposed] at hallowed
    · dsimp only
      split
      · exact h.trackedOnce
      · rename_i hnew
        refine List.nodup_append.2 ⟨h.trackedOnce, List.nodup_singleton _, ?_⟩
        intro first hfirst second hsecond
        rw [List.mem_singleton.1 hsecond]
        rintro rfl
        exact hnew hfirst
    · dsimp only
      split
      · rename_i hold
        refine ⟨.inr, ?_⟩
        rintro (rfl | hother)
        · exact hold
        · exact hother
      · rw [List.mem_append, List.mem_singleton, or_comm]

/-- A new session is live, and no other changes. -/
theorem live_start (h : Sessions s) {opens : Bool}
    (hstart : s.start enabled observable opens = some (t, session)) (other given : ℕ) :
    given ∈ t.sessions other ↔
      given < t.started ∧ t.owner given = other ∧ t.ended given = false := by
  obtain ⟨-, -, hstarted, howner, -, -, -, -, hended, hsessions, -, -⟩ := h.start hstart
  have hlive := h.live other given
  have hnew : s.started ∉ s.sessions other := fun hmem =>
    absurd ((h.live other s.started).1 hmem).1 (Nat.lt_irrefl _)
  rw [hstarted, howner, hended, hsessions]
  by_cases hgiven : given = s.started
  · subst hgiven
    by_cases hother : other = observable
    · subst hother
      simp
    · simp [hother, hnew, Ne.symm hother]
  · have hknown : given < s.started + 1 ↔ given < s.started := by omega
    rw [hknown]
    by_cases hother : other = observable
    · subst hother
      simp only [Function.update_self, Function.update_of_ne hgiven, List.mem_append,
        List.mem_singleton, hgiven, or_false, hlive]
    · simp only [Function.update_of_ne hother, Function.update_of_ne hgiven, hlive]

theorem nodup_start (h : Sessions s) {opens : Bool}
    (hstart : s.start enabled observable opens = some (t, session)) (other : ℕ) :
    (t.sessions other).Nodup := by
  obtain ⟨-, -, -, -, -, -, -, -, -, hsessions, -, -⟩ := h.start hstart
  rw [hsessions]
  by_cases hother : other = observable
  · subst hother
    rw [Function.update_self]
    refine List.nodup_append.2 ⟨h.nodup other, List.nodup_singleton _, ?_⟩
    intro first hfirst second hsecond
    rw [List.mem_singleton.1 hsecond]
    rintro rfl
    exact absurd ((h.live other _).1 hfirst).1 (Nat.lt_irrefl _)
  · rw [Function.update_of_ne hother]
    exact h.nodup other

theorem tracked_start (h : Sessions s) {opens : Bool}
    (hstart : s.start enabled observable opens = some (t, session)) (other : ℕ) :
    other ∈ t.tracked ↔ t.sessions other ≠ [] := by
  obtain ⟨-, -, -, -, -, -, -, -, -, hsessions, -, htracked⟩ := h.start hstart
  rw [hsessions, htracked, h.tracked]
  by_cases hother : other = observable
  · subst hother
    simp
  · simp [hother]

theorem Sessions.subscribe (h : Sessions s) {opens : Bool}
    (hstart : s.start enabled observable opens = some (t, session))
    (hprime : s.prime observable = none) : Sessions (t.adopt observable session) := by
  obtain ⟨rfl, -, hstarted, howner, hprimes, hadopted, -, -, hended, -, honce, -⟩ := h.start hstart
  have hsame : Function.update t.prime observable none = s.prime := by
    rw [hprimes, ← hprime, Function.update_eq_self]
  have htracked := tracked_start h hstart
  have hnodup := nodup_start h hstart
  have hlive := live_start h hstart
  exact
    { live := hlive
      nodup := hnodup
      tracked := htracked
      trackedOnce := honce
      primed := fun other given hgiven => by
        obtain ⟨hknown, hown, hnot⟩ :=
          h.primed other given ((congrFun hsame other).symm.trans hgiven)
        simp only [adopt, hstarted, howner, hadopted, List.mem_append, List.mem_singleton]
        rw [Function.update_of_ne (Nat.ne_of_lt hknown)]
        exact ⟨Nat.lt_succ_of_lt hknown, hown, by simp [hnot, Nat.ne_of_lt hknown]⟩
      adopted := fun given hgiven => by
        simp only [adopt, hstarted, hadopted, List.mem_append, List.mem_singleton] at hgiven ⊢
        rcases hgiven with hold | rfl
        · exact Nat.lt_succ_of_lt (h.adopted given hold)
        · exact Nat.lt_succ_self _
      once := by
        simp only [adopt, hadopted]
        refine List.nodup_append.2 ⟨h.once, List.nodup_singleton _, ?_⟩
        intro first hfirst second hsecond
        rw [List.mem_singleton.1 hsecond]
        exact Nat.ne_of_lt (h.adopted first hfirst)
      idle := fun given hgiven hliving => by
        simp only [adopt, hstarted, howner, hended, hadopted, List.mem_append,
          List.mem_singleton] at hgiven hliving ⊢
        by_cases hnew : given = s.started
        · exact .inl (.inr hnew)
        · rw [Function.update_of_ne hnew] at hliving ⊢
          rw [hsame]
          exact (h.idle given (by omega) hliving).imp .inl id }

theorem Sessions.current (h : Sessions s) {opens : Bool}
    (hstart : s.start enabled observable opens = some (t, session))
    (hprime : s.prime observable = none) :
    Sessions { t with prime := Function.update t.prime observable (some session) } := by
  obtain ⟨rfl, -, hstarted, howner, hprimes, hadopted, -, -, hended, -, honce, -⟩ := h.start hstart
  have htracked := tracked_start h hstart
  have hnodup := nodup_start h hstart
  have hlive := live_start h hstart
  exact
    { live := hlive
      nodup := hnodup
      tracked := htracked
      trackedOnce := honce
      primed := fun other given hgiven => by
        simp only [hstarted, howner, hadopted, hprimes] at hgiven ⊢
        by_cases hother : other = observable
        · subst hother
          rw [Function.update_self] at hgiven
          cases hgiven
          rw [Function.update_self]
          exact ⟨Nat.lt_succ_self _, rfl, fun hmem => Nat.lt_irrefl _ (h.adopted _ hmem)⟩
        · rw [Function.update_of_ne hother] at hgiven
          obtain ⟨hknown, hown, hnot⟩ := h.primed other given hgiven
          rw [Function.update_of_ne (Nat.ne_of_lt hknown)]
          exact ⟨Nat.lt_succ_of_lt hknown, hown, hnot⟩
      adopted := fun given hgiven => by
        simp only [hstarted, hadopted] at hgiven ⊢
        exact Nat.lt_succ_of_lt (h.adopted given hgiven)
      once := by
        simp only [hadopted]
        exact h.once
      idle := fun given hgiven hliving => by
        simp only [hstarted, howner, hended, hadopted, hprimes] at hgiven hliving ⊢
        by_cases hnew : given = s.started
        · subst hnew
          simp
        · rw [Function.update_of_ne hnew] at hliving ⊢
          rcases h.idle given (by omega) hliving with hold | hold
          · exact .inl hold
          · refine .inr ?_
            have hne : s.owner given ≠ observable := by
              rintro rfl
              rw [hprime] at hold
              cases hold
            rw [Function.update_of_ne hne]
            exact hold }

/-- A primed session is adopted. -/
theorem Sessions.adoptPrime (h : Sessions s) (hprime : s.prime observable = some session) :
    Sessions (s.adopt observable session) := by
  obtain ⟨hknown, hown, hnot⟩ := h.primed observable session hprime
  exact
    { h with
      primed := fun other given hgiven => by
        simp only [adopt] at hgiven ⊢
        by_cases hother : other = observable
        · subst hother
          simp at hgiven
        · rw [Function.update_of_ne hother] at hgiven
          obtain ⟨hlt, howned, hfree⟩ := h.primed other given hgiven
          refine ⟨hlt, howned, ?_⟩
          rw [List.mem_append, List.mem_singleton, not_or]
          refine ⟨hfree, ?_⟩
          rintro rfl
          exact hother (howned.symm.trans hown)
      adopted := fun given hgiven => by
        rcases List.mem_append.1 hgiven with hold | hnew
        · exact h.adopted given hold
        · rw [List.mem_singleton.1 hnew]
          exact hknown
      once := by
        refine List.nodup_append.2 ⟨h.once, List.nodup_singleton _, ?_⟩
        intro first hfirst second hsecond
        rw [List.mem_singleton.1 hsecond]
        rintro rfl
        exact hnot hfirst
      idle := fun given hgiven hliving => by
        simp only [adopt, List.mem_append, List.mem_singleton]
        rcases h.idle given hgiven hliving with hold | hold
        · exact .inl (.inl hold)
        · by_cases hsame : s.owner given = observable
          · rw [hsame, hprime] at hold
            exact .inl (.inr (Option.some.inj hold).symm)
          · refine .inr ?_
            rw [Function.update_of_ne hsame]
            exact hold }

/-! ### Every run -/

/-- A step that starts, adopts or ends sessions, and closes nothing. -/
theorem ObservationLaw.starting (h : ObservationLaw s) (ht : Sessions t)
    (hopen : s.closed observable = false) (hlive : s.disposed = false)
    (hclosed : t.closed = s.closed) (hdisposed : t.disposed = s.disposed)
    (hother : ∀ other, other ≠ observable → t.sessions other = s.sessions other ∧
      t.prime other = s.prime other) : ObservationLaw t :=
  { ht with
    closed := fun other hothers => by
      rw [hclosed] at hothers
      have hne : other ≠ observable := by
        rintro rfl
        rw [hopen] at hothers
        cases hothers
      rw [(hother other hne).1, (hother other hne).2]
      exact h.closed other hothers
    disposed := fun hgone => by
      rw [hdisposed, hlive] at hgone
      cases hgone }

theorem ObservationLaw.subscribe (h : ObservationLaw s) (observable : ℕ) (opens : Bool) :
    ObservationLaw (s.subscribe enabled observable opens) := by
  unfold DrizzleObservations.subscribe
  split
  · exact h
  · rename_i hallowed
    have hopen : s.closed observable = false := by
      by_contra hclosed
      simp [hclosed] at hallowed
    have hlive : s.disposed = false := by
      by_contra hdisposed
      simp [hdisposed] at hallowed
    split
    · rename_i session hprime
      refine h.starting (h.toSessions.adoptPrime hprime) hopen hlive rfl rfl fun other hne => ?_
      simp [adopt, hne]
    · rename_i hprime
      split
      · rename_i started session hstart
        obtain ⟨-, -, -, -, hprimes, -, hclosed, hdisposed, -, hsessions, -, -⟩ :=
          h.toSessions.start hstart
        refine h.starting (h.toSessions.subscribe hstart hprime) hopen hlive hclosed hdisposed
          fun other hne => ?_
        simp [adopt, hne, hsessions, hprimes]
      · exact h

theorem ObservationLaw.current (h : ObservationLaw s) (observable : ℕ) (opens : Bool) :
    ObservationLaw (s.current enabled observable opens) := by
  unfold DrizzleObservations.current
  split
  · exact h
  · rename_i hopen
    split
    · exact h
    · rename_i hprime
      split
      · rename_i started session hstart
        obtain ⟨-, hlive, -, -, hprimes, -, hclosed, hdisposed, -, hsessions, -, -⟩ :=
          h.toSessions.start hstart
        refine h.starting (h.toSessions.current hstart hprime) (by simpa using hopen) hlive hclosed
          hdisposed fun other hne => ?_
        simp [hne, hsessions, hprimes]
      · exact h

theorem ObservationLaw.ends (h : ObservationLaw s) (session : ℕ) :
    ObservationLaw (s.ends session) := by
  obtain ⟨-, -, hprime, -, hclosed, hdisposed⟩ := ends_frame s session
  have hkept := h.toSessions.ends session
  refine { hkept with closed := fun observable hgone => ?_, disposed := fun hgone => ?_ }
  · rw [hclosed] at hgone
    obtain ⟨hsessions, hnone⟩ := h.closed observable hgone
    rw [ends_sessions h.toSessions, hsessions, hprime]
    exact ⟨rfl, hnone⟩
  · rw [hdisposed] at hgone
    refine List.eq_nil_iff_forall_not_mem.2 fun observable hmem => ?_
    have hsome := (ends_tracked h.toSessions session observable).1 hmem
    have hnone : s.sessions observable = [] := by
      by_contra hlive
      have htracked := (h.tracked observable).2 hlive
      rw [h.disposed hgone] at htracked
      cases htracked
    rw [hnone] at hsome
    exact hsome rfl

theorem ObservationLaw.close (h : ObservationLaw s) (observable : ℕ) :
    ObservationLaw (s.close observable) := by
  obtain ⟨hkept, hclosing, -⟩ := h.toSessions.close h.closed observable
  refine { hkept with closed := hclosing.clean h.closed, disposed := fun hgone => ?_ }
  rw [hclosing.disposed] at hgone
  refine List.eq_nil_iff_forall_not_mem.2 fun other hmem => ?_
  have hsome := (hkept.tracked other).1 hmem
  refine hsome (hclosing.sessions other ?_)
  by_contra hlive
  have htracked := (h.tracked other).2 hlive
  rw [h.disposed hgone] at htracked
  cases htracked

theorem ObservationLaw.dispose (h : ObservationLaw s) : ObservationLaw s.dispose := by
  unfold DrizzleObservations.dispose
  split
  · exact h
  · let marked : DrizzleObservations := { s with disposed := true }
    have hmarked : Sessions marked := { h.toSessions with }
    obtain ⟨hkept, hclosing, hall⟩ := hmarked.closeAll h.closed s.tracked
    have hnone : ∀ observable, (marked.closeAll s.tracked).sessions observable = [] := by
      intro observable
      by_cases htracked : observable ∈ s.tracked
      · exact hall observable htracked
      · refine hclosing.sessions observable ?_
        by_contra hlive
        exact htracked ((h.tracked observable).2 hlive)
    exact
      { hkept with
        tracked := fun observable => by simpa using hnone observable
        trackedOnce := List.nodup_nil
        closed := hclosing.clean h.closed
        disposed := fun _ => rfl }

theorem ObservationLaw.step (h : ObservationLaw s) {event : ObservationEvent}
    (hstep : s.step enabled event = some t) : ObservationLaw t := by
  cases event with
  | observe =>
      cases hstep
      exact { h with }
  | subscribe observable opens =>
      simp only [DrizzleObservations.step] at hstep
      split at hstep
      · cases hstep
        exact h.subscribe observable opens
      · cases hstep
  | current observable opens =>
      simp only [DrizzleObservations.step] at hstep
      split at hstep
      · cases hstep
        exact h.current observable opens
      · cases hstep
  | ends session =>
      simp only [DrizzleObservations.step] at hstep
      split at hstep
      · cases hstep
        exact h.ends session
      · cases hstep
  | close observable =>
      simp only [DrizzleObservations.step] at hstep
      split at hstep
      · cases hstep
        exact h.close observable
      · cases hstep
  | dispose =>
      cases hstep
      exact h.dispose

theorem ObservationLaw.initial : ObservationLaw (drizzleObservations enabled).init where
  live _ _ := by simp [drizzleObservations]
  nodup _ := List.nodup_nil
  tracked _ := by simp [drizzleObservations]
  trackedOnce := List.nodup_nil
  primed _ _ hprime := by cases hprime
  adopted _ hmem := by cases hmem
  once := List.nodup_nil
  idle _ hknown := absurd hknown (Nat.not_lt_zero _)
  closed _ hclosed := by cases hclosed
  disposed hdisposed := by cases hdisposed

/-- In every state of every run: the scope tracks an observation exactly while a session of it is
live; a session is adopted once at most, and a live one that no subscription has adopted is the
primed one of its observation; a closed observation has no session, and no observation outlives
the disposal of the scope. -/
theorem observations_tracked (enabled : Bool) (s : DrizzleObservations)
    (hs : (drizzleObservations enabled).Reachable s) : ObservationLaw s ∧
      (s.disposed = true → ∀ session, session < s.started → s.ended session = true) := by
  have hlaw : ObservationLaw s :=
    Machine.Reachable.invariant (drizzleObservations enabled) ObservationLaw.initial
      (fun _ _ _ h hstep => h.step hstep) hs
  refine ⟨hlaw, fun hdisposed session hknown => ?_⟩
  by_contra hliving
  rw [Bool.not_eq_true] at hliving
  have hmem := (hlaw.live (s.owner session) session).2 ⟨hknown, rfl, hliving⟩
  have htracked := (hlaw.tracked (s.owner session)).2 (List.ne_nil_of_mem hmem)
  rw [hlaw.disposed hdisposed] at htracked
  cases htracked

theorem observations_tracked_disposed :
    ∃ s, (drizzleObservations true).exec {} [.observe, .current 0 true, .subscribe 0 true,
        .subscribe 0 true, .ends 0, .dispose, .subscribe 0 true] = some s ∧
      (ObservationLaw s ∧
        (s.disposed = true → ∀ session, session < s.started → s.ended session = true)) :=
  ⟨_, rfl, observations_tracked true _ ⟨[.observe, .current 0 true, .subscribe 0 true,
    .subscribe 0 true, .ends 0, .dispose, .subscribe 0 true], rfl⟩⟩

end DrizzleObservations

end Arc.Drizzle
