import Arc.Foundation.Machine

/-!
# The keep-alive of a hub

The heartbeat is scheduled from the last write that succeeded: each write reschedules it, where
the output reports its writes. A timer that finds the output idle sends a ping and schedules the
next heartbeat when the ping is sent. The events are the calls of the hub, the writes of the
output, the timers that fire, the pings that settle and the clock.
-/

namespace Arc.Observable

/-- A live timer: its handle and the time from which it may fire. -/
structure KeepAliveTimer where
  handle : ℕ
  due : ℕ
  deriving DecidableEq, Repr

/-- A ping: when it was sent, and the last activity of the output at that time. -/
structure KeepAlivePing where
  time : ℕ
  lastActivity : ℕ
  deriving DecidableEq, Repr

/-- `timers` are the live timers of the runtime, `pings` the sends that have not settled, `sent`
the pings so far and `failures` the calls of `onFailure`. -/
structure HubKeepAlive where
  now : ℕ := 0
  lastActivity : ℕ := 0
  observed : Bool := false
  timer : Option ℕ := none
  timers : List KeepAliveTimer := []
  handles : ℕ := 0
  started : Bool := false
  stopped : Bool := false
  pings : ℕ := 0
  failures : ℕ := 0
  sent : List KeepAlivePing := []
  deriving DecidableEq, Repr

inductive KeepAliveEvent
  | start
  | stop
  | activity
  | fire (handle : ℕ)
  | pingSent
  | pingFails
  | advance (elapsed : ℕ)
  deriving DecidableEq, Repr

namespace HubKeepAlive

/-- `clearTimeout` of the timer that is kept. -/
def clear (s : HubKeepAlive) : HubKeepAlive :=
  { s with timers := s.timers.filter fun timer => s.timer != some timer.handle }

def schedule (interval : ℕ) (s : HubKeepAlive) : HubKeepAlive :=
  if s.stopped || interval == 0 then s
  else
    let remaining := s.lastActivity + interval - s.now
    { s.clear with
      timers := s.clear.timers ++ [⟨s.handles, s.now + max 1 remaining⟩]
      timer := some s.handles
      handles := s.handles + 1 }

/-- `observes` tells whether the output has `onActivity`. -/
def start (interval : ℕ) (observes : Bool) (s : HubKeepAlive) : HubKeepAlive :=
  if interval = 0 then s else { s with started := true, observed := observes }.schedule interval

def stop (s : HubKeepAlive) : HubKeepAlive :=
  { s.clear with stopped := true, observed := false }

/-- The output has written a frame. -/
def activity (interval : ℕ) (s : HubKeepAlive) : HubKeepAlive :=
  let written := { s with lastActivity := s.now }
  if s.observed then written.schedule interval else written

/-- The callback of a timer. -/
def fired (interval : ℕ) (s : HubKeepAlive) : HubKeepAlive :=
  if s.stopped then s
  else if s.now - s.lastActivity < interval then s.schedule interval
  else { s with pings := s.pings + 1, sent := s.sent ++ [⟨s.now, s.lastActivity⟩] }

/-- A timer fires when it is due, once. -/
def fire (interval : ℕ) (s : HubKeepAlive) (handle : ℕ) : Option HubKeepAlive :=
  match s.timers.find? fun timer => timer.handle == handle with
  | some timer =>
      if s.now < timer.due then none
      else some ({ s with timers := s.timers.erase timer }.fired interval)
  | none => none

def pingSent (interval : ℕ) (s : HubKeepAlive) : Option HubKeepAlive :=
  if s.pings = 0 then none else some ({ s with pings := s.pings - 1 }.schedule interval)

def pingFails (s : HubKeepAlive) : Option HubKeepAlive :=
  if s.pings = 0 then none else some { s with pings := s.pings - 1, failures := s.failures + 1 }

def step (interval : ℕ) (observes : Bool) (s : HubKeepAlive) :
    KeepAliveEvent → Option HubKeepAlive
  | .start => some (s.start interval observes)
  | .stop => some s.stop
  | .activity => some (s.activity interval)
  | .fire handle => s.fire interval handle
  | .pingSent => s.pingSent interval
  | .pingFails => s.pingFails
  | .advance elapsed => some { s with now := s.now + elapsed }

end HubKeepAlive

/-- Every run of a keep-alive. -/
def hubKeepAlive (interval : ℕ) (observes : Bool) : Machine HubKeepAlive KeepAliveEvent where
  init := {}
  step := HubKeepAlive.step interval observes

namespace HubKeepAlive

variable {interval : ℕ} {observes : Bool} {s t : HubKeepAlive}

/-- The heartbeat in each state of a run: one timer at most, which is due neither before the
output can be idle nor later than it must, and none once stopped. -/
structure KeepAliveLaw (interval : ℕ) (s : HubKeepAlive) : Prop where
  single : s.timers = [] ∨ ∃ timer, s.timers = [timer] ∧ s.timer = some timer.handle
  stopped : s.stopped = true → s.timers = []
  alive : s.started = true → s.stopped = false → s.timers ≠ [] ∨ 0 < s.pings ∨ 0 < s.failures
  idle : ∀ ping ∈ s.sent, ping.lastActivity + interval ≤ ping.time
  bounded : ∀ timer ∈ s.timers, timer.due ≤ max (s.now + 1) (s.lastActivity + interval)
  observed : s.observed = true → ∀ timer ∈ s.timers, s.lastActivity + interval ≤ timer.due

/-! ### Scheduling -/

/-- Clearing the timer that is kept leaves none. -/
theorem clear_timers (h : s.timers = [] ∨ ∃ timer, s.timers = [timer] ∧
    s.timer = some timer.handle) : s.clear.timers = [] := by
  rcases h with hnone | ⟨timer, htimers, htimer⟩
  · rw [clear, hnone]
    rfl
  · simp [clear, htimers, htimer]

/-- What scheduling needs: the law without its conditions on the timer that is replaced. -/
structure Schedulable (interval : ℕ) (s : HubKeepAlive) : Prop where
  single : s.timers = [] ∨ ∃ timer, s.timers = [timer] ∧ s.timer = some timer.handle
  stopped : s.stopped = true → s.timers = []
  idle : ∀ ping ∈ s.sent, ping.lastActivity + interval ≤ ping.time

theorem schedule_of_stopped (hstopped : s.stopped = true) : s.schedule interval = s :=
  if_pos (by simp [hstopped])

/-- Scheduling leaves exactly one timer. -/
theorem schedule_of_running (h : Schedulable interval s) (hrunning : s.stopped = false)
    (hinterval : 0 < interval) :
    s.schedule interval = { s with
      timers := [⟨s.handles, s.now + max 1 (s.lastActivity + interval - s.now)⟩]
      timer := some s.handles
      handles := s.handles + 1 } := by
  unfold schedule
  rw [if_neg (by simp [hrunning, Nat.pos_iff_ne_zero.1 hinterval]), clear_timers h.single]
  rfl

theorem Schedulable.schedule (h : Schedulable interval s) (hinterval : 0 < interval) :
    KeepAliveLaw interval (s.schedule interval) := by
  cases hstopped : s.stopped with
  | true =>
      have htimers := h.stopped hstopped
      rw [schedule_of_stopped hstopped]
      exact
        { single := .inl htimers
          stopped := h.stopped
          alive := fun _ hrunning => by
            rw [hstopped] at hrunning
            cases hrunning
          idle := h.idle
          bounded := by simp [htimers]
          observed := by simp [htimers] }
  | false =>
      rw [schedule_of_running h hstopped hinterval]
      exact
        { single := .inr ⟨_, rfl, rfl⟩
          stopped := fun hfalse => by
            rw [show s.stopped = true from hfalse] at hstopped
            cases hstopped
          alive := fun _ _ => .inl (by simp)
          idle := h.idle
          bounded := by
            simp only [List.mem_singleton, forall_eq]
            omega
          observed := by
            simp only [List.mem_singleton, forall_eq]
            omega }

/-! ### Every run -/

/-- The law, and what it rests on. -/
structure Kept (interval : ℕ) (s : HubKeepAlive) : Prop extends KeepAliveLaw interval s where
  inert : interval = 0 → s.started = false ∧ s.observed = false ∧ s.timers = [] ∧ s.pings = 0
  clock : s.lastActivity ≤ s.now

@[simp] theorem schedule_clock (interval : ℕ) (s : HubKeepAlive) :
    (s.schedule interval).now = s.now ∧ (s.schedule interval).lastActivity = s.lastActivity := by
  unfold schedule
  split <;> exact ⟨rfl, rfl⟩

theorem Schedulable.kept (h : Schedulable interval s) (hinterval : 0 < interval)
    (hclock : s.lastActivity ≤ s.now) : Kept interval (s.schedule interval) :=
  { h.schedule hinterval with
    inert := fun hzero => absurd hzero (Nat.pos_iff_ne_zero.1 hinterval)
    clock := by simpa using hclock }

theorem Kept.start (h : Kept interval s) (observes : Bool) :
    Kept interval (s.start interval observes) := by
  unfold HubKeepAlive.start
  by_cases hzero : interval = 0
  · rw [if_pos hzero]
    exact h
  · rw [if_neg hzero]
    exact Schedulable.kept ⟨h.single, h.stopped, h.idle⟩ (Nat.pos_of_ne_zero hzero) h.clock

theorem Kept.stop (h : Kept interval s) : Kept interval s.stop where
  single := .inl (clear_timers h.single)
  stopped _ := clear_timers h.single
  alive _ hrunning := by cases hrunning
  idle := h.idle
  bounded timer htimer := by
    rw [show s.stop.timers = [] from clear_timers h.single] at htimer
    cases htimer
  observed hobserved := by cases hobserved
  inert hzero := ⟨(h.inert hzero).1, rfl, clear_timers h.single, (h.inert hzero).2.2.2⟩
  clock := h.clock

theorem Kept.activity (h : Kept interval s) : Kept interval (s.activity interval) := by
  unfold HubKeepAlive.activity
  cases hobserved : s.observed with
  | true =>
      have hinterval : 0 < interval := by
        refine Nat.pos_of_ne_zero fun hzero => ?_
        rw [(h.inert hzero).2.1] at hobserved
        cases hobserved
      exact Schedulable.kept ⟨h.single, h.stopped, h.idle⟩ hinterval (Nat.le_refl _)
  | false =>
      rw [if_neg (by decide)]
      exact
        { h with
          bounded := fun timer htimer => by
            have hbounded := h.bounded timer htimer
            have hclock := h.clock
            dsimp only
            omega
          observed := fun htrue => by cases htrue
          inert := fun hzero => ⟨(h.inert hzero).1, rfl, (h.inert hzero).2.2⟩
          clock := Nat.le_refl _ }

/-- The one timer that is live is the one that fires. -/
theorem fire_cases {handle : ℕ} (h : Kept interval s) (hstep : s.fire interval handle = some t) :
    ∃ timer, s.timers = [timer] ∧ timer.due ≤ s.now ∧
      t = { s with timers := [] }.fired interval := by
  unfold fire at hstep
  split at hstep
  · rename_i timer hfound
    have hmem := List.mem_of_find?_eq_some hfound
    rcases h.single with hnone | ⟨only, honly, -⟩
    · rw [hnone] at hmem
      cases hmem
    · rw [honly, List.mem_singleton] at hmem
      subst hmem
      by_cases hearly : s.now < timer.due
      · rw [if_pos hearly] at hstep
        cases hstep
      · rw [if_neg hearly, honly, List.erase_cons_head] at hstep
        exact ⟨timer, honly, by omega, (Option.some.inj hstep).symm⟩
  · cases hstep

theorem Kept.fire {handle : ℕ} (h : Kept interval s) (hstep : s.fire interval handle = some t) :
    Kept interval t := by
  obtain ⟨timer, htimers, -, rfl⟩ := fire_cases h hstep
  have hrunning : s.stopped = false := by
    cases hstopped : s.stopped with
    | false => rfl
    | true =>
        rw [h.stopped hstopped] at htimers
        cases htimers
  have hinterval : 0 < interval := by
    refine Nat.pos_of_ne_zero fun hzero => ?_
    rw [(h.inert hzero).2.2.1] at htimers
    cases htimers
  unfold fired
  rw [if_neg (by simp [hrunning])]
  by_cases hactive : s.now - s.lastActivity < interval
  · rw [if_pos hactive]
    exact Schedulable.kept ⟨.inl rfl, fun _ => rfl, h.idle⟩ hinterval h.clock
  · rw [if_neg hactive]
    exact
      { single := .inl rfl
        stopped := fun _ => rfl
        alive := fun _ _ => .inr (.inl (Nat.succ_pos _))
        idle := fun ping hping => by
          rcases List.mem_append.1 hping with hearlier | hlast
          · exact h.idle ping hearlier
          · rw [List.mem_singleton.1 hlast]
            have hclock := h.clock
            dsimp only
            omega
        bounded := by simp
        observed := by simp
        inert := fun hzero => absurd hzero (Nat.pos_iff_ne_zero.1 hinterval)
        clock := h.clock }

theorem Kept.pingSent (h : Kept interval s) (hstep : s.pingSent interval = some t) :
    Kept interval t := by
  unfold HubKeepAlive.pingSent at hstep
  by_cases hpings : s.pings = 0
  · rw [if_pos hpings] at hstep
    cases hstep
  · rw [if_neg hpings] at hstep
    cases hstep
    have hinterval : 0 < interval :=
      Nat.pos_of_ne_zero fun hzero => hpings (h.inert hzero).2.2.2
    exact Schedulable.kept ⟨h.single, h.stopped, h.idle⟩ hinterval h.clock

theorem Kept.pingFails (h : Kept interval s) (hstep : s.pingFails = some t) : Kept interval t := by
  unfold HubKeepAlive.pingFails at hstep
  by_cases hpings : s.pings = 0
  · rw [if_pos hpings] at hstep
    cases hstep
  · rw [if_neg hpings] at hstep
    cases hstep
    exact
      { h with
        alive := fun _ _ => .inr (.inr (Nat.succ_pos _))
        inert := fun hzero => absurd (h.inert hzero).2.2.2 hpings }

theorem Kept.advance (h : Kept interval s) (elapsed : ℕ) :
    Kept interval { s with now := s.now + elapsed } :=
  { h with
    bounded := fun timer htimer => by
      have hbounded := h.bounded timer htimer
      dsimp only
      omega
    clock := by
      have hclock := h.clock
      dsimp only
      omega }

theorem Kept.step (h : Kept interval s) {event : KeepAliveEvent}
    (hstep : s.step interval observes event = some t) : Kept interval t := by
  cases event with
  | start =>
      cases hstep
      exact h.start observes
  | stop =>
      cases hstep
      exact h.stop
  | activity =>
      cases hstep
      exact h.activity
  | fire handle => exact h.fire hstep
  | pingSent => exact h.pingSent hstep
  | pingFails => exact h.pingFails hstep
  | advance elapsed =>
      cases hstep
      exact h.advance elapsed

theorem Kept.initial : Kept interval (hubKeepAlive interval observes).init where
  single := .inl rfl
  stopped _ := rfl
  alive hstarted := by cases hstarted
  idle := by simp [hubKeepAlive]
  bounded := by simp [hubKeepAlive]
  observed hobserved := by cases hobserved
  inert _ := ⟨rfl, rfl, rfl, rfl⟩
  clock := Nat.le_refl _

/-! ### Once stopped -/

theorem schedule_sent (interval : ℕ) (s : HubKeepAlive) :
    (s.schedule interval).stopped = s.stopped ∧ (s.schedule interval).sent = s.sent := by
  unfold schedule
  split <;> exact ⟨rfl, rfl⟩

/-- A stopped heartbeat has no timer that could send a ping. -/
theorem silent_step (h : Kept interval s) (hstopped : s.stopped = true) {event : KeepAliveEvent}
    (hstep : s.step interval observes event = some t) : t.stopped = true ∧ t.sent = s.sent := by
  cases event with
  | start =>
      cases hstep
      unfold start
      split
      · exact ⟨hstopped, rfl⟩
      · have hsame := schedule_sent interval { s with started := true, observed := observes }
        exact ⟨hsame.1.trans hstopped, hsame.2⟩
  | stop =>
      cases hstep
      exact ⟨rfl, rfl⟩
  | activity =>
      cases hstep
      unfold activity
      dsimp only
      split
      · have hsame := schedule_sent interval { s with lastActivity := s.now }
        exact ⟨hsame.1.trans hstopped, hsame.2⟩
      · exact ⟨hstopped, rfl⟩
  | fire handle =>
      obtain ⟨timer, htimers, -⟩ := fire_cases h hstep
      rw [h.stopped hstopped] at htimers
      cases htimers
  | pingSent =>
      change s.pingSent interval = some t at hstep
      unfold HubKeepAlive.pingSent at hstep
      split at hstep
      · cases hstep
      · cases hstep
        have hsame := schedule_sent interval { s with pings := s.pings - 1 }
        exact ⟨hsame.1.trans hstopped, hsame.2⟩
  | pingFails =>
      change s.pingFails = some t at hstep
      unfold HubKeepAlive.pingFails at hstep
      split at hstep
      · cases hstep
      · cases hstep
        exact ⟨hstopped, rfl⟩
  | advance elapsed =>
      cases hstep
      exact ⟨hstopped, rfl⟩

theorem silent_run (h : Kept interval s) (hstopped : s.stopped = true)
    {events : List KeepAliveEvent}
    (hrun : (hubKeepAlive interval observes).exec s events = some t) :
    t.stopped = true ∧ t.sent = s.sent := by
  induction events generalizing s with
  | nil =>
      cases hrun
      exact ⟨hstopped, rfl⟩
  | cons event events ih =>
      obtain ⟨u, hstep, hrest⟩ := ((hubKeepAlive interval observes).exec_cons_eq_some_iff).1 hrun
      obtain ⟨hsilent, hsent⟩ := silent_step h hstopped hstep
      obtain ⟨hlast, hsame⟩ := ih (h.step hstep) hsilent hrest
      exact ⟨hlast, hsame.trans hsent⟩

/-- In every state of every run there is at most one live timer; a heartbeat that was started is
waiting for its timer or for a ping unless it was stopped or failed; a ping is only sent after an
idle interval; a timer is due no later than the interval asks, and no earlier where the output
reports its writes; and once stopped there is no timer and no further ping. -/
theorem heartbeat_kept (interval : ℕ) (observes : Bool) (s : HubKeepAlive)
    (hs : (hubKeepAlive interval observes).Reachable s) :
    KeepAliveLaw interval s ∧ (s.stopped = true → ∀ events t,
      (hubKeepAlive interval observes).exec s events = some t → t.sent = s.sent) := by
  have hkept : Kept interval s :=
    Machine.Reachable.invariant (hubKeepAlive interval observes) Kept.initial
      (fun _ _ _ h hstep => h.step hstep) hs
  exact ⟨hkept.toKeepAliveLaw, fun hstopped _ _ hrun => (silent_run hkept hstopped hrun).2⟩

theorem heartbeat_kept_pinged :
    ∃ s, (hubKeepAlive 5 true).exec {} [.start, .advance 3, .activity, .advance 5, .fire 1,
        .pingSent, .stop] = some s ∧
      (KeepAliveLaw 5 s ∧ (s.stopped = true → ∀ events t,
        (hubKeepAlive 5 true).exec s events = some t → t.sent = s.sent)) :=
  ⟨_, rfl, heartbeat_kept 5 true _ ⟨[.start, .advance 3, .activity, .advance 5, .fire 1,
    .pingSent, .stop], rfl⟩⟩

end HubKeepAlive

end Arc.Observable
