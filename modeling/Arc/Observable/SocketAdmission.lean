import Arc.Observable.NodeWebSockets

/-!
# Admission to the Node bridge and its shutdown

A request writes at most one outcome: a refusal ends its socket, and an upgrade is the last thing
that happens to it. A connection is tracked until its work has settled. Once the bridge shuts
down nothing is admitted, and the promises of the shutdown stand for the connections that were
tracked when it began.
-/

namespace Arc.Observable.NodeWebSockets

/-! ### One outcome for each request -/

theorem SocketState.ended_ne : SocketState.ended ≠ .usable := by decide

theorem SocketState.destroyed_ne : SocketState.destroyed ≠ .usable := by decide

namespace Upgrade

/-- Nothing was written yet, or the socket takes nothing more. -/
def Writable (request : Upgrade) : Prop :=
  request.outcomes = [] ∨ (request.outcomes.length = 1 ∧ request.socket ≠ .usable)

/-- At most one outcome was written, and none is written after it. -/
def Sound (request : Upgrade) : Prop :=
  request.Writable ∨ (request.outcomes.length = 1 ∧ request.stage = .done ∧ request.timer = false)

variable {request : Upgrade}

theorem Sound.length_le (h : request.Sound) : request.outcomes.length ≤ 1 := by
  rcases h with (h | ⟨h, -⟩) | ⟨h, -⟩
  · rw [h]
    exact Nat.zero_le 1
  · exact Nat.le_of_eq h
  · exact Nat.le_of_eq h

theorem Sound.writable (h : request.Sound) (hactive : request.stage ≠ .done) :
    request.Writable := by
  rcases h with h | ⟨-, hdone, -⟩
  · exact h
  · exact absurd hdone hactive

theorem Sound.writable_of_timer (h : request.Sound) (htimer : request.timer = true) :
    request.Writable := by
  rcases h with h | ⟨-, -, hoff⟩
  · exact h
  · rw [htimer] at hoff
    cases hoff

theorem Writable.reject (h : request.Writable) (code : ℕ) : (request.reject code).Writable := by
  unfold Upgrade.reject
  split
  · exact h
  · exact h
  · rename_i husable
    rcases h with h | ⟨-, h⟩
    · refine .inr ⟨?_, SocketState.ended_ne⟩
      simp only [h, List.nil_append, List.length_singleton]
    · exact absurd husable h

theorem Writable.stop (h : request.Writable) (shuttingDown : Bool) :
    (request.stop shuttingDown).Writable := by
  unfold Upgrade.stop
  split
  · exact h.reject 503
  · exact h

theorem Writable.afterNative (h : request.Writable) (shuttingDown : Bool) :
    (request.afterNative shuttingDown).Writable := by
  unfold Upgrade.afterNative
  split
  · exact h.stop shuttingDown
  · exact h

theorem Writable.handleUpgrade (h : request.Writable) (refusal : Option ℕ) :
    (request.handleUpgrade refusal).Sound := by
  unfold Upgrade.handleUpgrade
  split
  · rename_i husable
    have hnone : request.outcomes = [] := by
      rcases h with h | ⟨-, h⟩
      · exact h
      · exact absurd husable h
    cases refusal with
    | none => exact .inr ⟨by simp only [hnone, List.nil_append, List.length_singleton], rfl, rfl⟩
    | some code =>
        exact .inl (.inr ⟨by simp only [hnone, List.nil_append, List.length_singleton],
          SocketState.ended_ne⟩)
  · exact .inl (h.imp id fun h => ⟨h.1, SocketState.destroyed_ne⟩)

theorem Writable.afterPrepared (h : request.Writable) (shuttingDown : Bool) (answer : Prepared) :
    (request.afterPrepared shuttingDown answer).Sound := by
  cases answer with
  | status code => exact .inl (h.reject code)
  | ready refusal =>
      unfold Upgrade.afterPrepared
      dsimp only
      split
      · exact .inl (h.stop shuttingDown)
      · exact h.handleUpgrade refusal

theorem Writable.afterLogger (h : request.Writable) (failed : Bool) :
    (request.afterLogger failed).Writable := by
  unfold Upgrade.afterLogger
  split
  · exact (h.reject 500).reject 500
  · exact h.reject 500

theorem sound_arrive (arrival : Arrival) : (arrive arrival).Sound := by
  cases arrival with
  | foreign => exact .inl (.inl rfl)
  | unknown => exact .inl (.inr ⟨rfl, by decide⟩)
  | malformed => exact .inl (.inr ⟨rfl, by decide⟩)
  | routed => exact .inl (.inl rfl)

theorem Sound.destroyed (h : request.Sound) :
    Sound { request with socket := .destroyed } := by
  rcases h with (h | ⟨h, -⟩) | ⟨h, -⟩
  · exact .inl (.inl h)
  · exact .inl (.inr ⟨h, SocketState.destroyed_ne⟩)
  · exact .inl (.inr ⟨h, SocketState.destroyed_ne⟩)

end Upgrade

namespace Bridge

variable {s s' : Bridge} {r : ℕ}

/-! ### What a call changes -/

theorem releaseTransport_of_shuttingDown (h : s.shuttingDown = true) :
    s.releaseTransport = s := by
  unfold releaseTransport
  split_ifs with htransport hclosing
  · rfl
  · rfl
  · rw [shuttingDown, Bool.or_eq_true] at h
    exact absurd h (not_or.2 ⟨hclosing, htransport⟩)

theorem releaseTransport_frame (s : Bridge) : s.releaseTransport.requests = s.requests ∧
    s.releaseTransport.connections = s.connections ∧
    (s.releaseTransport.admitted = s.admitted ∨
      s.releaseTransport.admitted = s.closeAll.admitted) := by
  unfold releaseTransport
  split_ifs
  · exact ⟨rfl, rfl, .inl rfl⟩
  · exact ⟨rfl, rfl, .inl rfl⟩
  · exact ⟨rfl, rfl, .inr rfl⟩

theorem joinDelivery_frame (s : Bridge) : s.joinDelivery.requests = s.requests ∧
    s.joinDelivery.connections = s.connections ∧
    (s.joinDelivery.admitted = s.admitted ∨ s.joinDelivery.admitted = s.closeAll.admitted) := by
  unfold joinDelivery
  split_ifs
  · exact ⟨rfl, rfl, .inl rfl⟩
  · exact ⟨rfl, rfl, .inl rfl⟩
  · exact s.releaseTransport_frame

theorem call_frame (s : Bridge) (call : Call) : (s.call call).requests = s.requests ∧
    (s.call call).connections = s.connections ∧
    ((s.call call).admitted = s.admitted ∨ (s.call call).admitted = s.closeAll.admitted) := by
  cases call with
  | releaseTransport => exact s.releaseTransport_frame
  | joinDelivery => exact s.joinDelivery_frame
  | dispose =>
      rw [call_dispose]
      unfold dispose
      split_ifs
      · exact ⟨rfl, rfl, .inl rfl⟩
      · exact ⟨rfl, rfl, .inr rfl⟩
      · exact s.joinDelivery_frame

theorem closeAll_eq_some {connection : Connection} :
    s.closeAll.admitted r = some connection ↔ ∃ before, s.admitted r = some before ∧
      (if r ∈ s.connections then { before with closed := true } else before) = connection :=
  Option.map_eq_some_iff

/-! ### Invariants of every run -/

/-- Every request is sound, what is tracked was admitted, what works is tracked, and deliveries
are joined in a shutdown only. -/
structure Orderly (s : Bridge) : Prop where
  sound : ∀ r request, s.requests r = some request → request.Sound
  known : ∀ r ∈ s.connections, ∃ connection, s.admitted r = some connection
  tracks : ∀ r connection, s.admitted r = some connection → connection.work = none →
    r ∈ s.connections
  delivers : s.delivery.isSome = true → s.shuttingDown = true

theorem orderly_initial : Orderly initial where
  sound := fun _ _ h => by cases h
  known := fun _ h => by cases h
  tracks := fun _ _ h => by cases h
  delivers := fun h => by cases h

theorem Orderly.setRequest (h : s.Orderly) {request : Upgrade} (hsound : request.Sound) :
    (s.setRequest r request).Orderly := by
  refine ⟨fun other request' hother => ?_, h.known, h.tracks, h.delivers⟩
  by_cases heq : other = r
  · rw [heq, setRequest_self] at hother
    cases hother
    exact hsound
  · rw [setRequest_of_ne heq] at hother
    exact h.sound other request' hother

theorem Orderly.setConnection (h : s.Orderly) {connection connection' : Connection}
    (hadmitted : s.admitted r = some connection)
    (hwork : connection'.work = none → connection.work = none) :
    (s.setConnection r connection').Orderly := by
  refine ⟨h.sound, fun other hmem => ?_, fun other found hother hpending => ?_, h.delivers⟩
  · by_cases heq : other = r
    · rw [heq]
      exact ⟨connection', setConnection_self⟩
    · rw [setConnection_of_ne heq]
      exact h.known other hmem
  · by_cases heq : other = r
    · rw [heq, setConnection_self] at hother
      cases hother
      rw [heq]
      exact h.tracks r connection hadmitted (hwork hpending)
    · rw [setConnection_of_ne heq] at hother
      exact h.tracks other found hother hpending

theorem Orderly.release (h : s.Orderly) {connection : Connection}
    (hadmitted : s.admitted r = some connection) (hsettled : connection.work ≠ none) :
    (s.release r connection).Orderly := by
  have hset : (s.setConnection r { connection with closed := true }).Orderly :=
    h.setConnection hadmitted id
  refine ⟨h.sound, fun other hmem => ?_, fun other found hother hpending => ?_, h.delivers⟩
  · exact hset.known other (List.mem_filter.1 hmem).1
  · refine List.mem_filter.2 ⟨hset.tracks other found hother hpending, decide_eq_true ?_⟩
    rintro rfl
    have hself : some { connection with closed := true } = some found :=
      setConnection_self.symm.trans hother
    cases hself
    exact hsettled hpending

theorem Orderly.admitConnection (h : s.Orderly) : (s.admitConnection r).Orderly := by
  refine ⟨h.sound, fun other hmem => ?_, fun other found hother hpending => ?_, h.delivers⟩
  · by_cases heq : other = r
    · rw [heq]
      exact ⟨_, admitConnection_self⟩
    · rw [admitConnection_of_ne heq]
      rcases List.mem_append.1 hmem with hmem | hmem
      · exact h.known other hmem
      · exact absurd (List.mem_singleton.1 hmem) heq
  · by_cases heq : other = r
    · rw [heq]
      exact List.mem_append.2 (.inr (List.mem_singleton.2 rfl))
    · rw [admitConnection_of_ne heq] at hother
      exact List.mem_append.2 (.inl (h.tracks other found hother hpending))

theorem joinDelivery_delivers (s : Bridge) (h : s.delivery.isSome = true → s.shuttingDown = true) :
    s.joinDelivery.shuttingDown = true := by
  unfold joinDelivery
  split_ifs with hdelivery hclosing
  · exact h hdelivery
  · rw [Bool.and_eq_true] at hclosing
    simp only [shuttingDown, hclosing.1, Bool.true_or]
  · unfold releaseTransport
    split_ifs with htransport hbefore
    · simp only [shuttingDown, htransport, Bool.or_true]
    · simp only [shuttingDown, hbefore, Bool.true_or]
    · simp only [shuttingDown, Option.isSome_some, Bool.or_true]

/-- After a call the bridge shuts down. -/
theorem call_shuttingDown (s : Bridge) (call : Call)
    (h : s.delivery.isSome = true → s.shuttingDown = true) :
    (s.call call).shuttingDown = true := by
  cases call with
  | releaseTransport =>
      rw [call_releaseTransport]
      unfold releaseTransport
      split_ifs with htransport hbefore
      · simp only [shuttingDown, htransport, Bool.or_true]
      · simp only [shuttingDown, hbefore, Bool.true_or]
      · simp only [shuttingDown, Option.isSome_some, Bool.or_true]
  | joinDelivery => exact s.joinDelivery_delivers h
  | dispose =>
      rw [call_dispose]
      unfold dispose
      split_ifs with hclosing htransport
      · simp only [shuttingDown, hclosing, Bool.true_or]
      · simp only [disposeUncoordinated, shuttingDown, Option.isSome_some, Bool.true_or]
      · simp only [shuttingDown, Option.isSome_some, Bool.true_or]

theorem Orderly.call (h : s.Orderly) (call : Call) : (s.call call).Orderly := by
  obtain ⟨hrequests, hconnections, hadmitted⟩ := s.call_frame call
  refine ⟨?_, ?_, ?_, fun _ => s.call_shuttingDown call h.delivers⟩
  · rw [hrequests]
    exact h.sound
  · rw [hconnections]
    intro r hmem
    obtain ⟨connection, hconnection⟩ := h.known r hmem
    rcases hadmitted with hadmitted | hadmitted
    · exact ⟨connection, by rw [hadmitted, hconnection]⟩
    · exact ⟨_, by rw [hadmitted]; exact closeAll_eq_some.2 ⟨connection, hconnection, rfl⟩⟩
  · rw [hconnections]
    intro r connection hconnection hpending
    rcases hadmitted with hadmitted | hadmitted
    · rw [hadmitted] at hconnection
      exact h.tracks r connection hconnection hpending
    · rw [hadmitted] at hconnection
      obtain ⟨before, hbefore, rfl⟩ := closeAll_eq_some.1 hconnection
      split_ifs at hpending
      · exact h.tracks r before hbefore hpending
      · exact h.tracks r before hbefore hpending

theorem Orderly.step (h : s.Orderly) (hstep : Step s s') : s'.Orderly := by
  cases hstep with
  | arrives arrival => exact h.setRequest (Upgrade.sound_arrive arrival)
  | provided hrequest hstage =>
      have hwritable := (h.sound _ _ hrequest).writable (by rw [hstage]; decide)
      exact h.setRequest (.inl (hwritable.afterNative _))
  | failed hrequest hstage =>
      refine h.setRequest (.inl ((h.sound _ _ hrequest).writable ?_))
      rcases hstage with hstage | hstage
      · rw [hstage]
        decide
      · rw [hstage]
        decide
  | prepared hrequest hstage answer =>
      have hwritable := (h.sound _ _ hrequest).writable (by rw [hstage]; decide)
      have hsound := hwritable.afterPrepared s.shuttingDown answer
      unfold Bridge.prepared
      dsimp only
      split_ifs
      · exact (h.setRequest hsound).admitConnection
      · exact h.setRequest hsound
  | logged hrequest hstage failed =>
      have hwritable := (h.sound _ _ hrequest).writable (by rw [hstage]; decide)
      exact h.setRequest (.inl (hwritable.afterLogger failed))
  | timedOut hrequest htimer =>
      have hwritable := (h.sound _ _ hrequest).writable_of_timer htimer
      exact h.setRequest (.inl (hwritable.reject 408))
  | destroyed hrequest => exact h.setRequest (h.sound _ _ hrequest).destroyed
  | settled hadmitted hpending outcome =>
      exact h.setConnection hadmitted fun hnone => by cases hnone
  | released hadmitted hsettled => exact h.release hadmitted hsettled
  | closed gone hadmitted hgone => exact h.setConnection hadmitted id
  | called call => exact h.call call
  | transportTimedOut htransport hpending =>
      exact ⟨h.sound, h.known, h.tracks, fun _ => Bool.or_true _⟩
  | transportSettled htransport hpending hgone =>
      exact ⟨h.sound, h.known, h.tracks, fun _ => Bool.or_true _⟩
  | deliverySettled hdelivery hsettled =>
      exact ⟨h.sound, h.known, h.tracks, fun _ => h.delivers (by rw [hdelivery]; rfl)⟩
  | disposed hclosing hsettled => exact ⟨h.sound, h.known, h.tracks, fun _ => rfl⟩
  | coordinated hclosing htransport hreleased hdelivered =>
      exact ⟨h.sound, h.known, h.tracks, fun _ => rfl⟩
  | deadline hclosing hpending => exact ⟨h.sound, h.known, h.tracks, fun _ => rfl⟩

theorem Orderly.reaches (h : s.Orderly) (hrun : Reaches s s') : s'.Orderly := by
  induction hrun with
  | refl => exact h
  | tail _ hstep ih => exact ih.step hstep

end Bridge

end Arc.Observable.NodeWebSockets
