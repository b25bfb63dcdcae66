import Arc.Observable.SocketAdmission

/-!
# The shutdown of the Node bridge

Once the bridge shuts down nothing is admitted. What was tracked when it began is closed, and the
promises of the shutdown stand for it: a transaction joins the connections that were released,
and `dispose` alone those it found.
-/

namespace Arc.Observable.NodeWebSockets

namespace Bridge

variable {s s' : Bridge} {r : ℕ} {tracked : List ℕ}

/-! ### Nothing is admitted -/

/-- The bridge shuts down, and only these connections are admitted. -/
def ClosedTo (before s : Bridge) : Prop :=
  s.shuttingDown = true ∧
    ∀ r connection, s.admitted r = some connection → ∃ found, before.admitted r = some found

theorem closedTo_self (h : s.shuttingDown = true) : s.ClosedTo s :=
  ⟨h, fun _ connection hconnection => ⟨connection, hconnection⟩⟩

theorem ClosedTo.setConnection {before : Bridge} (h : before.ClosedTo s)
    {connection connection' : Connection} (hadmitted : s.admitted r = some connection) :
    before.ClosedTo (s.setConnection r connection') := by
  refine ⟨h.1, fun other found hother => ?_⟩
  by_cases heq : other = r
  · rw [heq]
    exact h.2 r connection hadmitted
  · rw [setConnection_of_ne heq] at hother
    exact h.2 other found hother

theorem connects_shuttingDown (request : Upgrade) (answer : Prepared) :
    request.connects true answer = false := by
  cases answer with
  | status code => rfl
  | ready refusal =>
      cases refusal with
      | none => exact Bool.and_false _
      | some code => rfl

theorem ClosedTo.step {before : Bridge} (h : before.ClosedTo s) (hstep : Step s s') :
    before.ClosedTo s' := by
  cases hstep with
  | arrives arrival => exact h
  | provided hrequest hstage => exact h
  | failed hrequest hstage => exact h
  | prepared hrequest hstage answer =>
      unfold Bridge.prepared
      dsimp only
      rw [h.1, connects_shuttingDown]
      exact h
  | logged hrequest hstage failed => exact h
  | timedOut hrequest htimer => exact h
  | destroyed hrequest => exact h
  | settled hadmitted hpending outcome => exact h.setConnection hadmitted
  | released hadmitted hsettled => exact ⟨h.1, (h.setConnection hadmitted).2⟩
  | closed gone hadmitted hgone => exact h.setConnection hadmitted
  | called call =>
      obtain ⟨-, -, hadmitted⟩ := s.call_frame call
      refine ⟨s.call_shuttingDown call fun _ => h.1, fun r connection hconnection => ?_⟩
      rcases hadmitted with hadmitted | hadmitted
      · rw [hadmitted] at hconnection
        exact h.2 r connection hconnection
      · rw [hadmitted] at hconnection
        obtain ⟨found, hfound, -⟩ := closeAll_eq_some.1 hconnection
        exact h.2 r found hfound
  | transportTimedOut htransport hpending => exact ⟨Bool.or_true _, h.2⟩
  | transportSettled htransport hpending hgone => exact ⟨Bool.or_true _, h.2⟩
  | deliverySettled hdelivery hsettled => exact ⟨h.1, h.2⟩
  | disposed hclosing hsettled => exact ⟨rfl, h.2⟩
  | coordinated hclosing htransport hreleased hdelivered => exact ⟨rfl, h.2⟩
  | deadline hclosing hpending => exact ⟨rfl, h.2⟩

theorem ClosedTo.reaches {before : Bridge} (h : before.ClosedTo s) (hrun : Reaches s s') :
    before.ClosedTo s' := by
  induction hrun with
  | refl => exact h
  | tail _ hstep ih => exact ih.step hstep

/-! ### What the promises stand for -/

/-- A transaction released these connections; it joins them, and `dispose` joins it. -/
structure Coordinated (tracked : List ℕ) (s : Bridge) : Prop where
  released : s.transportClosing.isSome = true
  active : s.active = tracked
  delivery : s.delivery ≠ some .closing
  closing : ∀ closing, s.closing = some closing →
    closing.admitted = none ∧ ∃ result, s.delivery = some (.works result)

/-- `dispose` alone joins these connections. -/
structure Alone (tracked : List ℕ) (s : Bridge) : Prop where
  transport : s.transportClosing = none
  closing : ∃ result, s.closing = some ⟨some tracked, result⟩
  delivery : ∀ result, s.delivery ≠ some (.works result)

/-- The bridge shuts down, and these connections were tracked when it began. -/
structure Shut (tracked : List ℕ) (s : Bridge) : Prop where
  mode : s.Coordinated tracked ∨ s.Alone tracked
  closed : ∀ r ∈ tracked, ∃ connection, s.admitted r = some connection ∧ connection.closed = true
  delivered : s.delivery = some (.works (some .fulfilled)) → ∀ r ∈ tracked, s.Succeeded r
  finished : s.closingResult = some .fulfilled → ∀ r ∈ tracked, s.Succeeded r

theorem not_coordinated_of_alone (h : s.Alone tracked) : s.transportClosing.isSome ≠ true := by
  rw [h.transport]
  decide

theorem Shut.coordinated_of_transport (h : s.Shut tracked) {transport : TransportClosing}
    (htransport : s.transportClosing = some transport) : s.Coordinated tracked := by
  rcases h.mode with h | h
  · exact h
  · exact absurd (by rw [htransport]; rfl) (not_coordinated_of_alone h)

theorem Shut.coordinated_of_works (h : s.Shut tracked) {result : Promise}
    (hdelivery : s.delivery = some (.works result)) : s.Coordinated tracked := by
  rcases h.mode with h | h
  · exact h
  · exact absurd hdelivery (h.delivery result)

theorem Shut.shuttingDown (h : s.Shut tracked) : s.shuttingDown = true := by
  rcases h.mode with h | h
  · rw [Bridge.shuttingDown, h.released, Bool.or_true]
  · obtain ⟨result, hclosing⟩ := h.closing
    rw [Bridge.shuttingDown, hclosing]
    rfl

theorem succeeded_of_joined {ids : List ℕ} (hsettled : s.Settled ids)
    (h : s.joined ids = .fulfilled) : ∀ r ∈ ids, s.Succeeded r := by
  intro r hmem
  obtain ⟨connection, outcome, hadmitted, hwork⟩ := hsettled r hmem
  cases outcome with
  | fulfilled => exact ⟨connection, hadmitted, hwork⟩
  | rejected =>
      have hany : (ids.any fun r => (s.admitted r).any fun connection =>
          decide (connection.work = some .rejected)) = true := by
        refine List.any_eq_true.2 ⟨r, hmem, ?_⟩
        rw [hadmitted]
        exact decide_eq_true hwork
      rw [joined, if_pos hany] at h
      cases h

theorem joined_of_rejected {ids : List ℕ} {connection : Connection} (hmem : r ∈ ids)
    (hadmitted : s.admitted r = some connection) (hwork : connection.work = some .rejected) :
    s.joined ids = .rejected := by
  refine if_pos (List.any_eq_true.2 ⟨r, hmem, ?_⟩)
  rw [hadmitted]
  exact decide_eq_true hwork

/-- A connection that is only closed, or whose work settles. -/
theorem Shut.setConnection (h : s.Shut tracked) {connection connection' : Connection}
    (hadmitted : s.admitted r = some connection)
    (hwork : connection.work ≠ none → connection'.work = connection.work)
    (hclosed : connection.closed = true → connection'.closed = true) :
    (s.setConnection r connection').Shut tracked := by
  have hsucceeded {other : ℕ} (hother : s.Succeeded other) :
      (s.setConnection r connection').Succeeded other := by
    obtain ⟨found, hfound, hdone⟩ := hother
    by_cases heq : other = r
    · subst heq
      rw [hfound] at hadmitted
      cases hadmitted
      refine ⟨connection', setConnection_self, ?_⟩
      rw [hwork (by rw [hdone]; exact Option.some_ne_none _), hdone]
    · exact ⟨found, (setConnection_of_ne heq).trans hfound, hdone⟩
  refine ⟨h.mode.imp (fun h => ⟨h.1, h.2, h.3, h.4⟩) fun h => ⟨h.1, h.2, h.3⟩,
    fun other hmem => ?_, fun hdelivered other hmem => hsucceeded (h.delivered hdelivered other hmem),
    fun hfinished other hmem => hsucceeded (h.finished hfinished other hmem)⟩
  obtain ⟨found, hfound, hdone⟩ := h.closed other hmem
  by_cases heq : other = r
  · subst heq
    rw [hfound] at hadmitted
    cases hadmitted
    exact ⟨connection', setConnection_self, hclosed hdone⟩
  · exact ⟨found, (setConnection_of_ne heq).trans hfound, hdone⟩

theorem Shut.release (h : s.Shut tracked) {connection : Connection}
    (hadmitted : s.admitted r = some connection) : (s.release r connection).Shut tracked := by
  have hset : (s.setConnection r { connection with closed := true }).Shut tracked :=
    h.setConnection hadmitted (fun _ => rfl) fun _ => rfl
  exact ⟨hset.mode.imp (fun h => ⟨h.1, h.2, h.3, h.4⟩) fun h => ⟨h.1, h.2, h.3⟩, hset.closed,
    hset.delivered, hset.finished⟩

/-- Requests say nothing of the shutdown. -/
theorem Shut.setRequest (h : s.Shut tracked) {request : Upgrade} :
    (s.setRequest r request).Shut tracked :=
  ⟨h.mode.imp (fun h => ⟨h.1, h.2, h.3, h.4⟩) fun h => ⟨h.1, h.2, h.3⟩, h.closed, h.delivered,
    h.finished⟩

theorem Shut.joinDelivery (h : s.Shut tracked) : s.joinDelivery.Shut tracked := by
  unfold Bridge.joinDelivery
  split_ifs with hdelivery halone
  · exact h
  · rw [Bool.and_eq_true, Option.isNone_iff_eq_none] at halone
    rcases h.mode with hmode | hmode
    · exact absurd hmode.released (by rw [halone.2]; decide)
    · exact ⟨.inr ⟨hmode.transport, hmode.closing, fun _ hworks => by cases hworks⟩, h.closed,
        fun hworks => (by cases hworks), h.finished⟩
  · rw [releaseTransport_of_shuttingDown h.shuttingDown]
    rcases h.mode with hmode | hmode
    · exact ⟨.inl ⟨hmode.released, hmode.active, fun hclosing => (by cases hclosing),
        fun closing hclosing => ⟨(hmode.closing closing hclosing).1, none, rfl⟩⟩, h.closed,
        fun hworks => (by cases hworks), h.finished⟩
    · obtain ⟨result, hclosing⟩ := hmode.closing
      refine absurd ?_ halone
      rw [hclosing, hmode.transport]
      rfl

theorem Shut.dispose (h : s.Shut tracked) : s.dispose.Shut tracked := by
  unfold Bridge.dispose
  split_ifs with hclosing htransport
  · exact h
  · have hshutting := h.shuttingDown
    rw [Bridge.shuttingDown, Bool.or_eq_true] at hshutting
    rw [Option.isNone_iff_eq_none] at htransport
    rcases hshutting with hshutting | hshutting
    · exact absurd hshutting hclosing
    · exact absurd hshutting (by rw [htransport]; decide)
  · have hjoined := h.joinDelivery
    rcases h.mode with hmode | hmode
    · have hreleased : s.joinDelivery.transportClosing.isSome = true := by
        unfold Bridge.joinDelivery
        split_ifs
        · exact hmode.released
        · exact hmode.released
        · rw [releaseTransport_of_shuttingDown h.shuttingDown]
          exact hmode.released
      have hdelivery : ∃ result, s.joinDelivery.delivery = some (.works result) := by
        unfold Bridge.joinDelivery
        split_ifs with hdelivery halone
        · obtain ⟨delivery, hfound⟩ := Option.isSome_iff_exists.1 hdelivery
          cases delivery with
          | closing => exact absurd hfound hmode.delivery
          | works result => exact ⟨result, hfound⟩
        · rw [Bool.and_eq_true] at halone
          exact absurd halone.1 hclosing
        · exact ⟨none, rfl⟩
      rcases hjoined.mode with hjoinedMode | hjoinedMode
      · exact ⟨.inl ⟨hreleased, hjoinedMode.active, hjoinedMode.delivery, fun closing heq => by
          cases heq
          exact ⟨rfl, hdelivery⟩⟩, hjoined.closed, hjoined.delivered, fun heq => by cases heq⟩
      · exact absurd hreleased (not_coordinated_of_alone hjoinedMode)
    · obtain ⟨result, hfound⟩ := hmode.closing
      exact absurd (by rw [hfound]; rfl) hclosing

theorem Shut.call (h : s.Shut tracked) (call : Call) : (s.call call).Shut tracked := by
  cases call with
  | releaseTransport =>
      rw [call_releaseTransport]
      rw [releaseTransport_of_shuttingDown h.shuttingDown]
      exact h
  | joinDelivery => exact h.joinDelivery
  | dispose => exact h.dispose

/-- What the tracked connections came to is kept when only a promise of `dispose` settles. -/
theorem Shut.settleClosing (h : s.Shut tracked) {closing : Closing}
    (hclosing : s.closing = some closing) {outcome : Outcome}
    (hfinished : outcome = .fulfilled → ∀ r ∈ tracked, s.Succeeded r) :
    Shut tracked { s with closing := some { closing with result := some outcome } } := by
  refine ⟨?_, h.closed, h.delivered, fun heq => hfinished (Option.some.inj heq)⟩
  rcases h.mode with hmode | hmode
  · exact .inl ⟨hmode.released, hmode.active, hmode.delivery, fun closing' heq => by
      cases heq
      exact hmode.closing closing hclosing⟩
  · obtain ⟨result, hfound⟩ := hmode.closing
    rw [hclosing] at hfound
    cases hfound
    exact .inr ⟨hmode.transport, ⟨_, rfl⟩, hmode.delivery⟩

theorem Shut.step (h : s.Shut tracked) (hstep : Step s s') : s'.Shut tracked := by
  cases hstep with
  | arrives arrival => exact h.setRequest
  | provided hrequest hstage => exact h.setRequest
  | failed hrequest hstage => exact h.setRequest
  | prepared hrequest hstage answer =>
      unfold Bridge.prepared
      dsimp only
      rw [h.shuttingDown, connects_shuttingDown]
      exact h.setRequest
  | logged hrequest hstage failed => exact h.setRequest
  | timedOut hrequest htimer => exact h.setRequest
  | destroyed hrequest => exact h.setRequest
  | settled hadmitted hpending outcome =>
      exact h.setConnection hadmitted (fun hwork => absurd hpending hwork) id
  | released hadmitted hsettled => exact h.release hadmitted
  | closed gone hadmitted hgone => exact h.setConnection hadmitted (fun _ => rfl) fun _ => rfl
  | called call => exact h.call call
  | transportTimedOut htransport hpending =>
      have hmode := h.coordinated_of_transport htransport
      exact ⟨.inl ⟨rfl, hmode.active, hmode.delivery, hmode.closing⟩, h.closed, h.delivered,
        h.finished⟩
  | transportSettled htransport hpending hgone =>
      have hmode := h.coordinated_of_transport htransport
      exact ⟨.inl ⟨rfl, hmode.active, hmode.delivery, hmode.closing⟩, h.closed, h.delivered,
        h.finished⟩
  | deliverySettled hdelivery hsettled =>
      have hmode := h.coordinated_of_works hdelivery
      refine ⟨.inl ⟨hmode.released, hmode.active, fun heq => (by cases heq), fun closing heq =>
        ⟨(hmode.closing closing heq).1, _, rfl⟩⟩, h.closed, fun heq => ?_, h.finished⟩
      have hjoined : s.joined s.active = .fulfilled :=
        Option.some.inj (Delivery.works.inj (Option.some.inj heq))
      rw [hmode.active] at hsettled hjoined
      exact succeeded_of_joined hsettled hjoined
  | disposed hclosing hsettled =>
      refine h.settleClosing hclosing fun houtcome => ?_
      rcases h.mode with hmode | hmode
      · exact absurd (hmode.closing _ hclosing).1 (Option.some_ne_none _)
      · obtain ⟨result, hfound⟩ := hmode.closing
        rw [hclosing] at hfound
        cases hfound
        exact succeeded_of_joined hsettled houtcome
  | coordinated hclosing htransport hreleased hdelivered =>
      refine h.settleClosing hclosing fun houtcome => ?_
      split_ifs at houtcome with hrejected
      rename_i transport released delivered
      cases delivered with
      | fulfilled => exact h.delivered hdelivered
      | rejected => exact absurd (.inr rfl) hrejected
  | deadline hclosing hpending => exact h.settleClosing hclosing fun houtcome => by cases houtcome

theorem Shut.reaches (h : s.Shut tracked) (hrun : Reaches s s') : s'.Shut tracked := by
  induction hrun with
  | refl => exact h
  | tail _ hstep ih => exact ih.step hstep

/-! ### Where a shutdown begins -/

theorem Orderly.closeAll_closed (h : s.Orderly) : ∀ r ∈ s.connections,
    ∃ connection, s.closeAll.admitted r = some connection ∧ connection.closed = true := by
  intro r hmem
  obtain ⟨connection, hconnection⟩ := h.known r hmem
  exact ⟨_, closeAll_eq_some.2 ⟨connection, hconnection, rfl⟩, by rw [if_pos hmem]⟩

/-- The first call shuts down for what is tracked. -/
theorem Orderly.shut_call (h : s.Orderly) (hnot : s.shuttingDown = false) (call : Call) :
    (s.call call).Shut s.connections := by
  have hdelivery : s.delivery = none := by
    cases hfound : s.delivery with
    | none => rfl
    | some delivery =>
        have hshutting := h.delivers (by rw [hfound]; rfl)
        rw [hnot] at hshutting
        cases hshutting
  rw [shuttingDown, Bool.or_eq_false_iff, Option.isSome_eq_false_iff, Option.isNone_iff_eq_none,
    Option.isSome_eq_false_iff, Option.isNone_iff_eq_none] at hnot
  obtain ⟨hclosing, htransport⟩ := hnot
  have hrelease : s.releaseTransport = { s.closeAll with
      listening := false
      active := s.connections
      transportClosing := some ⟨false, none⟩ } := by
    rw [releaseTransport, htransport, hclosing]
    rfl
  have hresult : s.closingResult = none := by
    rw [closingResult, hclosing]
    rfl
  cases call with
  | releaseTransport =>
      rw [call_releaseTransport]
      rw [hrelease]
      refine ⟨.inl ⟨rfl, rfl, ?_, fun closing heq => ?_⟩, h.closeAll_closed, fun heq => ?_,
        fun heq => ?_⟩
      · exact fun heq => by cases hdelivery.symm.trans heq
      · cases hclosing.symm.trans heq
      · cases hdelivery.symm.trans heq
      · cases hresult.symm.trans heq
  | joinDelivery =>
      rw [call_joinDelivery]
      have hjoin : s.joinDelivery = { s.releaseTransport with delivery := some (.works none) } := by
        rw [joinDelivery, hdelivery, hclosing]
        rfl
      rw [hjoin, hrelease]
      refine ⟨.inl ⟨rfl, rfl, fun heq => (by cases heq), fun closing heq => ?_⟩,
        h.closeAll_closed, fun heq => (by cases heq), fun heq => ?_⟩
      · cases hclosing.symm.trans heq
      · cases hresult.symm.trans heq
  | dispose =>
      rw [call_dispose]
      have hdispose : s.dispose = s.disposeUncoordinated := by
        rw [Bridge.dispose, hclosing, htransport]
        rfl
      rw [hdispose]
      refine ⟨.inr ⟨htransport, ⟨none, rfl⟩, fun result heq => ?_⟩, h.closeAll_closed,
        fun heq => ?_, fun heq => (by cases heq)⟩
      · cases hdelivery.symm.trans heq
      · cases hdelivery.symm.trans heq

/-! ### What a promise was settled with stays -/

theorem call_closing {closing : Closing} (h : s.closing = some closing) (call : Call) :
    (s.call call).closing = some closing := by
  have hsome : s.closing.isSome = true := by
    rw [h]
    rfl
  have hrelease : s.releaseTransport = s := by
    refine releaseTransport_of_shuttingDown ?_
    rw [shuttingDown, hsome]
    rfl
  cases call with
  | releaseTransport =>
      rw [call_releaseTransport]
      rw [hrelease]
      exact h
  | joinDelivery =>
      rw [call_joinDelivery]
      unfold joinDelivery
      rw [hrelease]
      split_ifs
      · exact h
      · exact h
      · exact h
  | dispose =>
      rw [call_dispose]
      unfold Bridge.dispose
      rw [if_pos hsome]
      exact h

theorem closingResult_step {outcome : Outcome} (h : s.closingResult = some outcome)
    (hstep : Step s s') : s'.closingResult = some outcome := by
  obtain ⟨closing, hclosing, hresult⟩ := Option.bind_eq_some_iff.1 h
  cases hstep with
  | prepared hrequest hstage answer =>
      unfold Bridge.prepared
      dsimp only
      split_ifs
      · exact h
      · exact h
  | called call =>
      rw [closingResult, call_closing hclosing call]
      exact hresult
  | disposed hfound hsettled =>
      rw [hclosing] at hfound
      cases hfound
      cases hresult
  | coordinated hfound htransport hreleased hdelivered =>
      rw [hclosing] at hfound
      cases hfound
      cases hresult
  | deadline hfound hpending =>
      rw [hclosing] at hfound
      cases hfound
      rw [hresult] at hpending
      cases hpending
  | _ => exact h

theorem call_delivery {delivery : Delivery} (h : s.delivery = some delivery) (call : Call) :
    (s.call call).delivery = some delivery := by
  have hsome : s.delivery.isSome = true := by
    rw [h]
    rfl
  have hjoin : s.joinDelivery = s := if_pos hsome
  cases call with
  | releaseTransport =>
      rw [call_releaseTransport]
      unfold releaseTransport
      split_ifs
      · exact h
      · exact h
      · exact h
  | joinDelivery =>
      rw [call_joinDelivery]
      rw [hjoin]
      exact h
  | dispose =>
      rw [call_dispose]
      unfold Bridge.dispose
      rw [hjoin]
      split_ifs
      · exact h
      · exact h
      · exact h

/-- What `joinDelivery` returned is only changed when its own promise settles. -/
theorem delivery_step {delivery : Delivery} (h : s.delivery = some delivery)
    (hsettled : delivery ≠ .works none) (hstep : Step s s') : s'.delivery = some delivery := by
  cases hstep with
  | prepared hrequest hstage answer =>
      unfold Bridge.prepared
      dsimp only
      split_ifs
      · exact h
      · exact h
  | called call => exact call_delivery h call
  | deliverySettled hfound hworks => exact absurd (Option.some.inj (h.symm.trans hfound)) hsettled
  | _ => exact h

theorem deliveryResult_step {outcome : Outcome} (h : s.deliveryResult = some outcome)
    (hstep : Step s s') : s'.deliveryResult = some outcome := by
  cases hdelivery : s.delivery with
  | none =>
      rw [deliveryResult, hdelivery] at h
      cases h
  | some delivery =>
      rw [deliveryResult, hdelivery] at h
      cases delivery with
      | closing =>
          have hsettled : Delivery.closing ≠ .works none := by
            intro heq
            cases heq
          rw [deliveryResult, delivery_step hdelivery hsettled hstep]
          exact closingResult_step h hstep
      | works result =>
          have hresult : result = some outcome := h
          subst hresult
          have hsettled : Delivery.works (some outcome) ≠ .works none := by
            intro heq
            cases heq
          rw [deliveryResult, delivery_step hdelivery hsettled hstep]

/-- What the promises of a shutdown say of the connections that were tracked when it began: a
fulfilled one that each is closed and its work has succeeded; once all works have settled, one of
them rejected, a pending `joinDelivery` is rejected; a pending `dispose` is rejected at its
deadline; and what a promise was settled with stays. -/
structure Joins (tracked : List ℕ) (s : Bridge) : Prop where
  fulfilled : s.deliveryResult = some .fulfilled ∨ s.closingResult = some .fulfilled →
    ∀ r ∈ tracked, ∃ connection, s.admitted r = some connection ∧ connection.closed = true ∧
      connection.work = some .fulfilled
  rejected : s.delivery.isSome = true → s.deliveryResult = none → s.Settled tracked →
    (∃ r ∈ tracked, ∃ connection, s.admitted r = some connection ∧
      connection.work = some .rejected) → ∃ s', Step s s' ∧ s'.deliveryResult = some .rejected
  overdue : s.closing.isSome = true → s.closingResult = none →
    ∃ s', Step s s' ∧ s'.closingResult = some .rejected
  stays : ∀ s' outcome, Step s s' →
    (s.deliveryResult = some outcome → s'.deliveryResult = some outcome) ∧
      (s.closingResult = some outcome → s'.closingResult = some outcome)

theorem Shut.succeeded (h : s.Shut tracked)
    (hfulfilled : s.deliveryResult = some .fulfilled ∨ s.closingResult = some .fulfilled) :
    ∀ r ∈ tracked, s.Succeeded r := by
  rcases hfulfilled with hdelivered | hfinished
  · rw [deliveryResult] at hdelivered
    split at hdelivered
    · cases hdelivered
    · exact h.finished hdelivered
    · rename_i hfound
      rw [hdelivered] at hfound
      exact h.delivered hfound
  · exact h.finished hfinished

theorem Shut.joins (h : s.Shut tracked) : s.Joins tracked := by
  refine ⟨fun hfulfilled r hmem => ?_, fun hcalled hpending hsettled hfailed => ?_,
    fun hcalled hpending => ?_, fun s' outcome hstep =>
    ⟨fun hresult => deliveryResult_step hresult hstep,
      fun hresult => closingResult_step hresult hstep⟩⟩
  · obtain ⟨connection, hadmitted, hwork⟩ := h.succeeded hfulfilled r hmem
    obtain ⟨found, hfound, hclosed⟩ := h.closed r hmem
    rw [hadmitted] at hfound
    cases hfound
    exact ⟨connection, hadmitted, hclosed, hwork⟩
  · obtain ⟨r, hmem, connection, hadmitted, hwork⟩ := hfailed
    cases hdelivery : s.delivery with
    | none =>
        rw [hdelivery] at hcalled
        cases hcalled
    | some delivery =>
        rw [deliveryResult, hdelivery] at hpending
        cases delivery with
        | closing =>
            rcases h.mode with hmode | hmode
            · exact absurd hdelivery hmode.delivery
            · obtain ⟨result, hclosing⟩ := hmode.closing
              rw [hclosing] at hpending
              have hnone : result = none := hpending
              subst hnone
              refine ⟨_, .disposed hclosing hsettled, ?_⟩
              rw [deliveryResult, hdelivery]
              exact congrArg some (joined_of_rejected hmem hadmitted hwork)
        | works result =>
            have hnone : result = none := hpending
            subst hnone
            have hmode := h.coordinated_of_works hdelivery
            refine ⟨_, .deliverySettled hdelivery (hmode.active.symm ▸ hsettled), ?_⟩
            exact congrArg some
              (joined_of_rejected (hmode.active.symm ▸ hmem) hadmitted hwork)
  · obtain ⟨closing, hclosing⟩ := Option.isSome_iff_exists.1 hcalled
    rw [closingResult, hclosing] at hpending
    exact ⟨_, .deadline hclosing hpending, rfl⟩

end Bridge

end Arc.Observable.NodeWebSockets
