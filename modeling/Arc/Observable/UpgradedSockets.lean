import Arc.Observable.SocketShutdown

/-!
# Sockets that a host has upgraded

A host adapter hands over sockets it has upgraded itself. They are tracked until their protocol
work has settled; a coordinated shutdown closes those that are tracked and joins their work, and
refuses what is handed over afterwards.
-/

namespace Arc.Observable.NodeWebSockets

/-- A socket that was handed over: its protocol work, if any was started, and whether its
transport was closed. -/
structure UpgradedSocket where
  completion : Option Promise
  closed : Bool

/-- The sockets of a server. The transaction's task for them is there once a shutdown has found
some; `none` in it is a task that has not settled. -/
structure UpgradedSockets where
  coordinatedShutdownStarted : Bool
  sockets : ℕ → Option UpgradedSocket
  upgraded : List ℕ
  active : List ℕ
  work : Option Promise

namespace UpgradedSockets

def initial : UpgradedSockets where
  coordinatedShutdownStarted := false
  sockets := fun _ => none
  upgraded := []
  active := []
  work := none

variable (s : UpgradedSockets)

def setSocket (r : ℕ) (socket : UpgradedSocket) : UpgradedSockets :=
  { s with sockets := Function.update s.sockets r (some socket) }

/-- Host adapters bridge an already-upgraded socket. -/
def serveUpgradedSocket (r : ℕ) : UpgradedSockets :=
  if s.coordinatedShutdownStarted then s.setSocket r ⟨none, true⟩
  else { s.setSocket r ⟨some none, false⟩ with upgraded := s.upgraded ++ [r] }

/-- A coordinated shutdown starts: close what is tracked and hand its work to the transaction. -/
def coordinateUpgradedSockets : UpgradedSockets :=
  { s with
    coordinatedShutdownStarted := true
    sockets := fun r => (s.sockets r).map fun socket =>
      if r ∈ s.upgraded then { socket with closed := true } else socket
    active := s.upgraded
    work := if s.upgraded = [] then none else some none }

def Settled (ids : List ℕ) : Prop :=
  ∀ r ∈ ids, ∃ socket outcome, s.sockets r = some socket ∧
    socket.completion = some (some outcome)

/-- `Promise.allSettled` of the works, and an error when one has failed. -/
def joined (ids : List ℕ) : Outcome :=
  if ids.any fun r => (s.sockets r).any fun socket => socket.completion = some (some .rejected)
  then .rejected
  else .fulfilled

/-- A turn of the event loop. -/
inductive Step : UpgradedSockets → UpgradedSockets → Prop
  | served {s : UpgradedSockets} {r : ℕ} (hfresh : s.sockets r = none) :
      Step s (s.serveUpgradedSocket r)
  | settled {s : UpgradedSockets} {r : ℕ} {socket : UpgradedSocket}
      (h : s.sockets r = some socket) (hpending : socket.completion = some none)
      (outcome : Outcome) :
      Step s (s.setSocket r { socket with completion := some (some outcome) })
  | released {s : UpgradedSockets} {r : ℕ} {socket : UpgradedSocket} {outcome : Outcome}
      (h : s.sockets r = some socket) (hsettled : socket.completion = some (some outcome)) :
      Step s { s with upgraded := s.upgraded.filter fun other => decide (other ≠ r) }
  | closed {s : UpgradedSockets} {r : ℕ} {socket : UpgradedSocket}
      (h : s.sockets r = some socket) : Step s (s.setSocket r { socket with closed := true })
  | shutdown {s : UpgradedSockets} (hrunning : s.coordinatedShutdownStarted = false) :
      Step s s.coordinateUpgradedSockets
  | workSettled {s : UpgradedSockets} (h : s.work = some none) (hsettled : s.Settled s.active) :
      Step s { s with work := some (some (s.joined s.active)) }

abbrev Reaches : UpgradedSockets → UpgradedSockets → Prop := Relation.ReflTransGen Step

variable {s} {s' before : UpgradedSockets} {r other : ℕ} {socket : UpgradedSocket}

@[simp] theorem setSocket_self : (s.setSocket r socket).sockets r = some socket :=
  Function.update_self _ _ _

theorem setSocket_of_ne (h : other ≠ r) :
    (s.setSocket r socket).sockets other = s.sockets other :=
  Function.update_of_ne h _ _

/-- While the server runs, what works is tracked, and what is tracked was handed over. -/
structure Tracked (s : UpgradedSockets) : Prop where
  known : ∀ r ∈ s.upgraded, ∃ socket, s.sockets r = some socket
  tracks : ∀ r socket, s.sockets r = some socket → socket.completion = some none → r ∈ s.upgraded

theorem tracked_initial : initial.Tracked where
  known := fun _ h => by cases h
  tracks := fun _ _ h => by cases h

theorem Tracked.setSocket (h : s.Tracked) {socket' : UpgradedSocket}
    (hsocket : s.sockets r = some socket)
    (hwork : socket'.completion = some none → socket.completion = some none) :
    (s.setSocket r socket').Tracked := by
  refine ⟨fun other hmem => ?_, fun other found hother hpending => ?_⟩
  · by_cases heq : other = r
    · rw [heq]
      exact ⟨socket', setSocket_self⟩
    · rw [setSocket_of_ne heq]
      exact h.known other hmem
  · by_cases heq : other = r
    · rw [heq, setSocket_self] at hother
      cases hother
      rw [heq]
      exact h.tracks r socket hsocket (hwork hpending)
    · rw [setSocket_of_ne heq] at hother
      exact h.tracks other found hother hpending

theorem Tracked.serve (h : s.Tracked) (hfresh : s.sockets r = none) :
    (s.serveUpgradedSocket r).Tracked := by
  have hne {found : ℕ} (hmem : found ∈ s.upgraded) : found ≠ r := by
    rintro rfl
    obtain ⟨socket, hsocket⟩ := h.known found hmem
    rw [hfresh] at hsocket
    cases hsocket
  unfold serveUpgradedSocket
  split_ifs
  · refine ⟨fun other hmem => ?_, fun other found hother hpending => ?_⟩
    · rw [setSocket_of_ne (hne hmem)]
      exact h.known other hmem
    · by_cases heq : other = r
      · rw [heq, setSocket_self] at hother
        cases hother
        cases hpending
      · rw [setSocket_of_ne heq] at hother
        exact h.tracks other found hother hpending
  · refine ⟨fun other hmem => ?_, fun other found hother hpending => ?_⟩
    · rcases List.mem_append.1 hmem with hmem | hmem
      · obtain ⟨found, hfound⟩ := h.known other hmem
        exact ⟨found, (setSocket_of_ne (hne hmem)).trans hfound⟩
      · rw [List.mem_singleton.1 hmem]
        exact ⟨_, setSocket_self⟩
    · by_cases heq : other = r
      · exact List.mem_append.2 (.inr (List.mem_singleton.2 heq))
      · have hbefore := (setSocket_of_ne heq).symm.trans hother
        exact List.mem_append.2 (.inl (h.tracks other found hbefore hpending))

theorem coordinate_eq_some : s.coordinateUpgradedSockets.sockets r = some socket ↔
    ∃ found, s.sockets r = some found ∧
      (if r ∈ s.upgraded then { found with closed := true } else found) = socket :=
  Option.map_eq_some_iff

theorem Tracked.coordinate (h : s.Tracked) : s.coordinateUpgradedSockets.Tracked := by
  refine ⟨fun r hmem => ?_, fun r socket hsocket hpending => ?_⟩
  · obtain ⟨found, hfound⟩ := h.known r hmem
    exact ⟨_, coordinate_eq_some.2 ⟨found, hfound, rfl⟩⟩
  · obtain ⟨found, hfound, rfl⟩ := coordinate_eq_some.1 hsocket
    split_ifs at hpending
    · exact h.tracks r found hfound hpending
    · exact h.tracks r found hfound hpending

theorem Tracked.step (h : s.Tracked) (hstep : Step s s') : s'.Tracked := by
  cases hstep with
  | served hfresh => exact h.serve hfresh
  | settled hsocket hpending outcome => exact h.setSocket hsocket fun heq => by cases heq
  | released hsocket hsettled =>
      refine ⟨fun other hmem => h.known other (List.mem_filter.1 hmem).1,
        fun other found hother hpending => List.mem_filter.2 ⟨h.tracks other found hother hpending,
          decide_eq_true ?_⟩⟩
      rintro rfl
      rw [hsocket] at hother
      cases hother
      rw [hsettled] at hpending
      cases hpending
  | closed hsocket => exact h.setSocket hsocket id
  | shutdown hrunning => exact h.coordinate
  | workSettled hwork hsettled => exact ⟨h.known, h.tracks⟩

theorem Tracked.reaches (h : s.Tracked) (hrun : Reaches s s') : s'.Tracked := by
  induction hrun with
  | refl => exact h
  | tail _ hstep ih => exact ih.step hstep

def Succeeded (s : UpgradedSockets) (r : ℕ) : Prop :=
  ∃ socket, s.sockets r = some socket ∧ socket.completion = some (some .fulfilled)

/-- After the shutdown of a server with these sockets: what is handed over now is closed without
protocol work, and what was tracked is closed and joined. -/
structure Shut (before s : UpgradedSockets) : Prop where
  started : s.coordinatedShutdownStarted = true
  refused : ∀ r socket, before.sockets r = none → s.sockets r = some socket →
    socket.completion = none ∧ socket.closed = true
  active : s.active = before.upgraded
  closed : ∀ r ∈ before.upgraded, ∃ socket, s.sockets r = some socket ∧ socket.closed = true
  joins : before.upgraded ≠ [] → ∃ result, s.work = some result
  succeeded : s.work = some (some .fulfilled) → ∀ r ∈ before.upgraded, s.Succeeded r

theorem Tracked.shut (h : s.Tracked) : Shut s s.coordinateUpgradedSockets := by
  refine ⟨rfl, fun r socket hnone hsocket => ?_, rfl, fun r hmem => ?_, fun hne => ?_,
    fun hwork => ?_⟩
  · obtain ⟨found, hfound, -⟩ := coordinate_eq_some.1 hsocket
    rw [hnone] at hfound
    cases hfound
  · obtain ⟨found, hfound⟩ := h.known r hmem
    exact ⟨_, coordinate_eq_some.2 ⟨found, hfound, rfl⟩, by rw [if_pos hmem]⟩
  · exact ⟨none, if_neg hne⟩
  · unfold coordinateUpgradedSockets at hwork
    dsimp only at hwork
    split_ifs at hwork
    cases hwork

theorem Shut.setSocket (h : Shut before s) {socket' : UpgradedSocket}
    (hsocket : s.sockets r = some socket)
    (hnone : socket.completion = none → socket'.completion = none)
    (hdone : ∀ outcome, socket.completion = some (some outcome) →
      socket'.completion = some (some outcome))
    (hclosed : socket.closed = true → socket'.closed = true) :
    Shut before (s.setSocket r socket') := by
  refine ⟨h.started, fun other found hfresh hfound => ?_, h.active, fun other hmem => ?_, h.joins,
    fun hwork other hmem => ?_⟩
  · by_cases heq : other = r
    · rw [heq, setSocket_self] at hfound
      cases hfound
      rw [heq] at hfresh
      obtain ⟨hcompletion, hclose⟩ := h.refused r socket hfresh hsocket
      exact ⟨hnone hcompletion, hclosed hclose⟩
    · rw [setSocket_of_ne heq] at hfound
      exact h.refused other found hfresh hfound
  · by_cases heq : other = r
    · subst heq
      obtain ⟨found, hfound, hclose⟩ := h.closed other hmem
      rw [hsocket] at hfound
      cases hfound
      exact ⟨socket', setSocket_self, hclosed hclose⟩
    · rw [setSocket_of_ne heq]
      exact h.closed other hmem
  · obtain ⟨found, hfound, hcompletion⟩ := h.succeeded hwork other hmem
    by_cases heq : other = r
    · subst heq
      rw [hsocket] at hfound
      cases hfound
      exact ⟨socket', setSocket_self, hdone _ hcompletion⟩
    · exact ⟨found, (setSocket_of_ne heq).trans hfound, hcompletion⟩

/-- A socket that is handed over after the shutdown. -/
theorem Shut.serve (h : Shut before s) (hfresh : s.sockets r = none) :
    Shut before (s.serveUpgradedSocket r) := by
  have hserve : s.serveUpgradedSocket r = s.setSocket r ⟨none, true⟩ := by
    rw [serveUpgradedSocket, if_pos h.started]
  have hne {other : ℕ} {found : UpgradedSocket} (hfound : s.sockets other = some found) :
      other ≠ r := by
    rintro rfl
    rw [hfresh] at hfound
    cases hfound
  rw [hserve]
  refine ⟨h.started, fun other found hnone hfound => ?_, h.active, fun other hmem => ?_, h.joins,
    fun hwork other hmem => ?_⟩
  · by_cases heq : other = r
    · rw [heq, setSocket_self] at hfound
      cases hfound
      exact ⟨rfl, rfl⟩
    · rw [setSocket_of_ne heq] at hfound
      exact h.refused other found hnone hfound
  · obtain ⟨found, hfound, hclosed⟩ := h.closed other hmem
    exact ⟨found, (setSocket_of_ne (hne hfound)).trans hfound, hclosed⟩
  · obtain ⟨found, hfound, hcompletion⟩ := h.succeeded hwork other hmem
    exact ⟨found, (setSocket_of_ne (hne hfound)).trans hfound, hcompletion⟩

theorem succeeded_of_joined {ids : List ℕ} (hsettled : s.Settled ids)
    (h : s.joined ids = .fulfilled) : ∀ r ∈ ids, s.Succeeded r := by
  intro r hmem
  obtain ⟨socket, outcome, hsocket, hcompletion⟩ := hsettled r hmem
  cases outcome with
  | fulfilled => exact ⟨socket, hsocket, hcompletion⟩
  | rejected =>
      have hany : (ids.any fun r => (s.sockets r).any fun socket =>
          decide (socket.completion = some (some .rejected))) = true := by
        refine List.any_eq_true.2 ⟨r, hmem, ?_⟩
        rw [hsocket]
        exact decide_eq_true hcompletion
      rw [joined, if_pos hany] at h
      cases h

theorem Shut.step (h : Shut before s) (hstep : Step s s') : Shut before s' := by
  cases hstep with
  | served hfresh => exact h.serve hfresh
  | settled hsocket hpending outcome =>
      refine h.setSocket hsocket (fun heq => ?_) (fun outcome' heq => ?_) id
      · cases hpending.symm.trans heq
      · cases hpending.symm.trans heq
  | released hsocket hsettled =>
      exact ⟨h.started, h.refused, h.active, h.closed, h.joins, h.succeeded⟩
  | closed hsocket => exact h.setSocket hsocket id (fun _ => id) fun _ => rfl
  | shutdown hrunning =>
      rw [h.started] at hrunning
      cases hrunning
  | workSettled hwork hsettled =>
      refine ⟨h.started, h.refused, h.active, h.closed, fun _ => ⟨_, rfl⟩, fun heq => ?_⟩
      have hjoined : s.joined s.active = .fulfilled := Option.some.inj (Option.some.inj heq)
      rw [h.active] at hsettled hjoined
      exact succeeded_of_joined hsettled hjoined

theorem Shut.reaches (h : Shut before s) (hrun : Reaches s s') : Shut before s' := by
  induction hrun with
  | refl => exact h
  | tail _ hstep ih => exact ih.step hstep

end UpgradedSockets

/-! ### Refused or joined -/

theorem Bridge.Orderly.closedTo_call {s : Bridge} (h : s.Orderly) (call : Call) :
    s.ClosedTo (s.call call) := by
  obtain ⟨-, -, hadmitted⟩ := s.call_frame call
  refine ⟨s.call_shuttingDown call h.delivers, fun r connection hconnection => ?_⟩
  rcases hadmitted with hadmitted | hadmitted
  · rw [hadmitted] at hconnection
    exact ⟨connection, hconnection⟩
  · rw [hadmitted] at hconnection
    obtain ⟨found, hfound, -⟩ := Bridge.closeAll_eq_some.1 hconnection
    exact ⟨found, hfound⟩

end Arc.Observable.NodeWebSockets
