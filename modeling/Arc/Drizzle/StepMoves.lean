import Arc.Drizzle.EntryMoves

/-!
# Taking a step of an entry apart

`step_moves`: a step is a sequence of moves, and makes only the mistakes it commits. There
is one lemma for each function of the source. The entries of a manager change only by steps
of their own, so what every move keeps holds of every entry of a reachable manager
(`step_entries`).
-/

namespace Arc.Drizzle.PostgreSQLObservation

namespace Entry

variable {D : Defect → Prop} {w w' : Entry}

/-! ### Small updates -/

theorem mem_live {i : ℕ} : i ∈ w.live ↔ w.released i = false := by
  rw [live, List.mem_filter, List.mem_range, Bool.not_eq_true']
  refine ⟨fun h => h.2, fun h => ⟨?_, h⟩⟩
  by_contra hlong
  rw [released, List.getElem?_eq_none (Nat.not_lt.1 hlong)] at h
  simp at h

theorem nodup_live : w.live.Nodup := List.nodup_range.filter _

theorem released_eq {i : ℕ} {lease : Lease} (h : w.leases[i]? = some lease) :
    w.released i = lease.released := by
  rw [released, h]
  rfl

theorem released_eq_false_iff {i : ℕ} :
    w.released i = false ↔ ∃ lease, w.leases[i]? = some lease ∧ lease.released = false := by
  rw [released]
  cases h : w.leases[i]? with
  | none => simp
  | some lease => simp

theorem live_isEmpty : w.live.isEmpty = true ↔ w.live = [] := List.isEmpty_iff

@[simp] theorem setRecovery_setRecovery (r : ℕ) (a b : Recovery) :
    (w.setRecovery r a).setRecovery r b = w.setRecovery r b := by
  simp [setRecovery, List.set_set]

theorem setRecovery_get {r : ℕ} {recovery : Recovery} (h : w.recoveries[r]? = some recovery)
    (a : Recovery) : (w.setRecovery r a).recoveries[r]? = some a := by
  obtain ⟨hlt, -⟩ := List.getElem?_eq_some_iff.1 h
  exact List.getElem?_set_self hlt

/-! ### Loss and release -/

/-- The head of the loop does not look at the stage it came from. -/
theorem loop_setRecovery (r : ℕ) (a : Recovery) : (w.setRecovery r a).loop r = w.loop r := by
  rw [loop, loop]
  split_ifs with h h' h'
  · exact setRecovery_setRecovery r _ _
  · exact absurd h h'
  · exact absurd h' h
  · have hdelay : (w.setRecovery r a).delays[(w.setRecovery r a).retries]? =
        w.delays[w.retries]? := rfl
    rw [hdelay]
    cases w.delays[w.retries]? with
    | none =>
        have hset : ({ w.setRecovery r a with
            retries := (w.setRecovery r a).retries + 1 }).setRecovery r .ended =
            ({ w with retries := w.retries + 1 }).setRecovery r .ended :=
          setRecovery_setRecovery (w := { w with retries := w.retries + 1 }) r a .ended
        exact congrArg (fun u : Entry => u.terminate w.exhausted) hset
    | some _ =>
        exact setRecovery_setRecovery (w := { w with retries := w.retries + 1 }.record .delay)
          r a .delayed

theorem loop_moves {r : ℕ} (h : w.recoveries[r]? = some .looping) : Moves D w (w.loop r) := by
  rw [loop]
  split_ifs with hdead
  · refine Move.moves (.ended r .looping h rfl ?_ ?_)
    · simp [stage, h]
    · rwa [Bool.or_eq_true, live_isEmpty] at hdead
  · rw [Bool.or_eq_true, not_or, Bool.not_eq_true] at hdead
    cases hdelay : w.delays[w.retries]? with
    | none => exact Move.moves (.exhausted r h hdead.1 hdelay)
    | some delay => exact Move.moves (.delayed r delay h hdead.1 hdelay)

theorem recover_moves {u : Entry} (h : Moves D w u.spawn) : Moves D w u.recover := by
  refine h.trans (loop_moves ?_)
  simp [spawn]

/-- A reported loss. -/
theorem lost_moves (message : String) (hcause : w.available = false → w.LossCause) :
    Moves D w (w.lost message) := by
  rw [lost]
  split_ifs with hgone hready havailable
  · exact Relation.ReflTransGen.refl
  all_goals
    rw [Bool.or_eq_true, not_or, Bool.not_eq_true, Bool.not_eq_true] at hgone
  · exact Move.moves (.terminated _ hgone.1)
  · rw [Bool.not_eq_true'] at havailable
    rw [Bool.not_eq_true', Bool.not_eq_false] at hready
    exact Move.moves (.lostRecovering message hgone.1 hgone.2 hready havailable
      (hcause havailable))
  · rw [Bool.not_eq_true', Bool.not_eq_false] at hready havailable
    exact recover_moves (Move.moves (.lostAvailable message hgone.1 hgone.2 hready havailable))

/-- A timeout settles its operation and reports a loss. -/
theorem lost_settle_moves {o : ℕ} {op : Operation} (failure : Failure) (message : String)
    (h : w.operations[o]? = some op) (hphase : op.phase ≠ .queued) (hsettled : op.settled = none)
    (htarget : op.target.listenerOperation = true) :
    Moves D w ((w.settle o (.error failure)).lost message) := by
  have hexpired : Moves D w (w.settle o (.error failure)) :=
    Move.moves (.expired o op failure h hphase)
  by_cases hrecovering : w.dead = false ∧ w.fired = false ∧ w.wasReady = true ∧
      w.available = false
  · obtain ⟨hdead, hfired, hready, havailable⟩ := hrecovering
    have hlost : (w.settle o (.error failure)).lost message =
        (w.settle o (.error failure)).lose message := by
      simp [lost, settle, hdead, hfired, hready, havailable]
    rw [hlost]
    exact Move.moves (.lostExpired o op failure message hdead hfired hready havailable h hphase
      hsettled htarget)
  · have hgone : (w.dead || w.fired) = true ∨ w.wasReady = false ∨ w.available = true := by
      grind
    rcases hgone with hgone | hready | havailable
    · have hlost : (w.settle o (.error failure)).lost message = w.settle o (.error failure) := by
        rw [lost]
        exact if_pos hgone
      rw [hlost]
      exact hexpired
    · refine hexpired.trans ?_
      rw [lost]
      split_ifs with hgone hready'
      · exact Relation.ReflTransGen.refl
      · rw [Bool.or_eq_true, not_or, Bool.not_eq_true] at hgone
        exact Move.moves (.terminated _ hgone.1)
      all_goals exact absurd hready (by simpa [settle] using hready')
    · exact hexpired.trans (lost_moves message fun hnot => absurd (havailable.symm.trans hnot)
        (by simp))

theorem release_moves (i : ℕ) : Moves D w (w.release i) := by
  rw [release]
  cases h : w.leases[i]? with
  | none => exact Relation.ReflTransGen.refl
  | some lease =>
      dsimp only
      split_ifs with hreleased hlive
      · exact Relation.ReflTransGen.refl
      · rw [Bool.not_eq_true] at hreleased
        by_cases hdead : w.dead = true
        · have hshutdown : ((w.unlease i lease).forget lease.table).shutdown =
              (w.unlease i lease).forget lease.table := by
            have hdead' : ((w.unlease i lease).forget lease.table).dead = true := by
              rw [forget]
              split <;> exact hdead
            simp [shutdown, hdead']
          rw [hshutdown]
          exact Move.moves (.unleased i lease h hreleased (Or.inl hdead))
        · exact Move.moves (.unleasedLast i lease h hreleased (Bool.not_eq_true _ ▸ hdead))
      · rw [Bool.not_eq_true] at hreleased
        exact Move.moves (.unleased i lease h hreleased (Or.inr fun hnil =>
          hlive (live_isEmpty.2 hnil)))

/-! ### What is kept -/

/-- The operations after an abort. -/
def aborted (w : Entry) : List Operation := w.abort.operations

theorem closeConnection_eq : w.closeConnection = { w with log := w.closeConnection.log } := by
  unfold closeConnection
  split <;> rfl

theorem lose_eq (message : String) :
    w.lose message = { w with
      lossReason := if w.available then some message else w.lossReason
      available := false
      generation := w.generation + 1
      timer := none
      fired := true
      operations := w.aborted
      log := w.closeConnection.log
      connection := none } := by
  unfold lose closeConnection
  cases hconnection : w.connection with
  | none => simp [abort, aborted, hconnection]
  | some c => simp [abort, aborted, hconnection, scheduleClose, record]

theorem shutdown_eq (hdead : w.dead = false) :
    w.shutdown = { w with
      dead := true
      fired := true
      generation := w.generation + 1
      timer := none
      routing := .empty
      identities := .empty
      gates := (w.settleReady (.rejected .closed)).gates
      operations := w.aborted
      log := w.closeConnection.log } := by
  rw [shutdown, if_neg (by simp [hdead])]
  unfold closeConnection
  cases hconnection : w.connection with
  | none => simp [retire, settleReady, abort, aborted, hconnection]
  | some c => simp [retire, settleReady, abort, aborted, hconnection, scheduleClose, record]

theorem terminate_eq (failure : Failure) (hdead : w.dead = false) :
    w.terminate failure =
      { w with
        dead := true
        fired := true
        generation := w.generation + 1
        timer := none
        routing := .empty
        identities := .empty
        gates := ((w.settleReady (.rejected failure)).settleReady (.rejected .closed)).gates
        operations := w.aborted
        log := w.closeConnection.log }.fanOut (.terminated failure) w.live := by
  rw [terminate, if_neg (by simp [hdead]), shutdown_eq (w := w.settleReady (.rejected failure)) hdead]
  have hlog : (w.settleReady (.rejected failure)).closeConnection.log = w.closeConnection.log := by
    unfold closeConnection settleReady
    split <;> simp_all [scheduleClose, record]
  rw [hlog]
  rfl

theorem dispose_eq (hdead : w.dead = false) :
    w.dispose =
      { w with
        dead := true
        fired := true
        generation := w.generation + 1
        timer := none
        routing := .empty
        identities := .empty
        gates := (w.settleReady (.rejected .closed)).gates
        operations := w.aborted
        stack := .closing :: w.stack }.fanOut .disposed w.live := by
  rw [dispose, if_neg (by simp [hdead])]
  rfl

@[simp] theorem closeConnection_leases : w.closeConnection.leases = w.leases := by
  unfold closeConnection
  split <;> rfl

@[simp] theorem closeConnection_recoveries : w.closeConnection.recoveries = w.recoveries := by
  unfold closeConnection
  split <;> rfl

@[simp] theorem closeConnection_fired : w.closeConnection.fired = w.fired := by
  unfold closeConnection
  split <;> rfl

@[simp] theorem closeConnection_dead : w.closeConnection.dead = w.dead := by
  unfold closeConnection
  split <;> rfl

@[simp] theorem shutdown_leases : w.shutdown.leases = w.leases := by
  unfold shutdown
  split
  · rfl
  · rw [closeConnection_leases]
    rfl

@[simp] theorem shutdown_recoveries : w.shutdown.recoveries = w.recoveries := by
  unfold shutdown
  split
  · rfl
  · rw [closeConnection_recoveries]
    rfl

theorem shutdown_dead : w.shutdown.dead = true := by
  unfold shutdown
  split
  · assumption
  · rw [closeConnection_dead]
    rfl

@[simp] theorem terminate_recoveries (failure : Failure) :
    (w.terminate failure).recoveries = w.recoveries := by
  unfold terminate
  split
  · rfl
  · exact shutdown_recoveries

theorem terminate_dead (failure : Failure) : (w.terminate failure).dead = true := by
  unfold terminate
  split
  · assumption
  · exact shutdown_dead

theorem terminate_startup (failure : Failure) :
    (w.terminate failure).startup = w.startup := by
  unfold terminate shutdown closeConnection
  split_ifs
  all_goals try rfl
  split <;> rfl

@[simp] theorem lose_recoveries (message : String) :
    (w.lose message).recoveries = w.recoveries := closeConnection_recoveries

@[simp] theorem lose_fired (message : String) : (w.lose message).fired = true :=
  closeConnection_fired

@[simp] theorem lose_dead (message : String) : (w.lose message).dead = w.dead :=
  closeConnection_dead

@[simp] theorem terminate_leases (failure : Failure) :
    (w.terminate failure).leases = w.leases := by
  unfold terminate
  split
  · rfl
  · exact shutdown_leases

@[simp] theorem loop_leases (r : ℕ) : (w.loop r).leases = w.leases := by
  unfold loop
  split_ifs
  · rfl
  · split
    · rw [terminate_leases]
      rfl
    · rfl

@[simp] theorem lost_leases (message : String) : (w.lost message).leases = w.leases := by
  unfold lost
  split_ifs
  · rfl
  · exact terminate_leases _
  · exact closeConnection_leases
  · rw [recover, loop_leases]
    exact closeConnection_leases

@[simp] theorem closeConnection_operations : w.closeConnection.operations = w.operations := by
  unfold closeConnection
  split <;> rfl

theorem terminate_operations (failure : Failure) :
    (w.terminate failure).operations = w.operations ∨
      (w.terminate failure).operations = w.aborted := by
  unfold terminate
  split_ifs with hdead
  · exact Or.inl rfl
  · rw [shutdown_eq (w := w.settleReady (.rejected failure)) (Bool.not_eq_true _ ▸ hdead)]
    exact Or.inr rfl

theorem loop_operations (r : ℕ) :
    (w.loop r).operations = w.operations ∨ (w.loop r).operations = w.aborted := by
  unfold loop
  split_ifs
  · exact Or.inl rfl
  · split
    · exact terminate_operations _
    · exact Or.inl rfl

theorem operation_settle_settled {op : Operation} {outcome : Outcome}
    (h : op.settled.isSome = true) : op.settle outcome = op := by
  rw [Operation.settle, if_pos h]

theorem abort_answered {o : ℕ} (h : w.answered o = true) : w.abort.answered o = true := by
  rw [answered, outcome] at h ⊢
  cases hop : w.operations[o]? with
  | none => simp [hop] at h
  | some op =>
      rw [hop, Option.bind_some] at h
      rw [abort, List.getElem?_map, hop, Option.map_some, Option.bind_some,
        operation_settle_settled h]
      split <;> exact h

theorem aborted_answered {u : Entry} {o : ℕ} (h : w.answered o = true)
    (hops : u.operations = w.operations ∨ u.operations = w.aborted) : u.answered o = true := by
  rcases hops with hops | hops
  · rw [answered, outcome, hops]
    exact h
  · rw [answered, outcome, hops]
    exact abort_answered h

theorem lost_answered {o : ℕ} (message : String) (h : w.answered o = true) :
    (w.lost message).answered o = true := by
  have hlose : (w.lose message).answered o = true :=
    aborted_answered h (Or.inr closeConnection_operations)
  unfold lost
  split_ifs
  · exact h
  · exact aborted_answered h (terminate_operations _)
  · exact hlose
  · exact aborted_answered (w := (w.lose message).openGate.spawn) hlose (loop_operations _)

theorem release_lease {i : ℕ} {lease : Lease} (h : w.leases[i]? = some lease) :
    (w.release i).leases[i]? = some { lease with released := true } := by
  have hset : ((w.unlease i lease).forget lease.table).leases =
      w.leases.set i { lease with released := true } := by
    unfold forget
    split <;> rfl
  obtain ⟨hlt, -⟩ := List.getElem?_eq_some_iff.1 h
  rw [release, h]
  dsimp only
  split_ifs with hreleased
  · rw [h]
    cases lease
    simp_all
  · rw [shutdown_leases, hset]
    exact List.getElem?_set_self hlt
  · rw [hset]
    exact List.getElem?_set_self hlt

theorem loop_recoveries {r s : ℕ} (h : s ≠ r) : (w.loop r).recoveries[s]? = w.recoveries[s]? := by
  have hset : ∀ a, (w.recoveries.set r a)[s]? = w.recoveries[s]? :=
    fun a => List.getElem?_set_ne (Ne.symm h)
  unfold loop
  split_ifs
  · exact hset _
  · split
    · rw [terminate_recoveries]
      exact hset _
    · exact hset _

theorem loop_dead_or_fired {r : ℕ} (h : w.fired = true) :
    (w.loop r).dead = true ∨ (w.loop r).fired = true := by
  unfold loop
  split_ifs
  · exact Or.inr h
  · split
    · exact Or.inl (terminate_dead _)
    · exact Or.inr h

theorem lost_recoveries {r : ℕ} {recovery : Recovery} (message : String)
    (h : w.recoveries[r]? = some recovery) :
    (w.lost message).recoveries[r]? = some recovery := by
  unfold lost
  split_ifs
  · exact h
  · rw [terminate_recoveries]
    exact h
  · rw [lose_recoveries]
    exact h
  · obtain ⟨hlt, -⟩ := List.getElem?_eq_some_iff.1 h
    have hlose : (w.lose message).openGate.recoveries = w.recoveries := lose_recoveries message
    rw [recover, loop_recoveries (by rw [hlose]; exact Nat.ne_of_lt hlt)]
    rw [spawn, hlose, List.getElem?_append_left hlt]
    exact h

theorem lost_dead_or_fired (message : String) :
    (w.lost message).dead = true ∨ (w.lost message).fired = true := by
  unfold lost
  split_ifs with hgone
  · simpa using hgone
  · exact Or.inl (terminate_dead _)
  · exact Or.inr (lose_fired message)
  · rw [recover]
    exact loop_dead_or_fired (lose_fired message)

/-! ### The promise `ready` -/

theorem failReady_moves {i : ℕ} {lease : Lease} (failure : Failure)
    (h : w.leases[i]? = some lease) (hr : lease.ready ≠ .fulfilled) :
    Moves D w (w.failReady i failure) :=
  (release_moves i).tail (.readyFailed i _ failure (release_lease h) hr rfl)

theorem readyLoop_moves {i : ℕ} {lease : Lease} (h : w.leases[i]? = some lease)
    (hr : lease.ready ≠ .fulfilled)
    (hstarted : w.startup = .fulfilled ∨ lease.ready.underway = true) :
    Moves D w (w.readyLoop i) := by
  rw [readyLoop]
  split_ifs with hclosed hwaiting
  · exact failReady_moves .closed h hr
  all_goals
    rw [Bool.or_eq_true, not_or, Bool.not_eq_true, Bool.not_eq_true] at hclosed
    obtain ⟨hreleased, hdead⟩ := hclosed
    rw [released_eq h] at hreleased
  · rw [Bool.and_eq_true, Bool.not_eq_true'] at hwaiting
    exact Move.moves (.readyWaiting i lease h hr hstarted hwaiting.1 hwaiting.2 hdead)
  · refine Move.moves (.readyResolving i lease h hr hreleased hstarted hdead ?_)
    rw [Bool.and_eq_true, Bool.not_eq_true', not_and_or, Bool.not_eq_true, Bool.not_eq_false]
      at hwaiting
    exact hwaiting.imp_right Or.inl

theorem readyCaught_moves {i : ℕ} {lease : Lease} (g : ℕ) (failure : Failure)
    (h : w.leases[i]? = some lease) (hr : lease.ready ≠ .fulfilled)
    (hstarted : lease.ready.underway = true) : Moves D w (w.readyCaught i g failure) := by
  rw [readyCaught]
  split_ifs
  · exact readyLoop_moves h hr (Or.inr hstarted)
  · exact failReady_moves failure h hr

theorem becomeReady_moves {i : ℕ} {lease : Lease} (h : w.leases[i]? = some lease)
    (hr : lease.ready = .fulfilled) (hdead : w.dead = false) : Moves D w w.becomeReady := by
  by_cases hready : w.wasReady = true
  · rw [becomeReady, if_pos hready]
    exact Relation.ReflTransGen.refl
  · exact Move.moves (.becameReady i lease h hr hdead (Bool.not_eq_true _ ▸ hready))

/-- `validate` reports a loss only of an entry that is being recovered, or made ready. -/
theorem validate_moves (identity : PostgreSQLTableIdentity) (outcome : Outcome)
    (hcause : w.available = false → w.LossCause) :
    Moves D w (w.validate identity outcome).1 := by
  cases outcome with
  | error failure =>
      rw [validate]
      dsimp only
      split_ifs
      · exact lost_moves _ hcause
      · exact Relation.ReflTransGen.refl
  | ok value => exact Relation.ReflTransGen.refl

theorem resumeReady_moves {i : ℕ} {lease : Lease} (h : w.leases[i]? = some lease)
    (hstep : w.resumeReady i lease = some w') : Moves D w w' := by
  rw [resumeReady] at hstep
  cases hready : lease.ready with
  | starting =>
      rw [hready] at hstep
      have hr : lease.ready ≠ .fulfilled := by simp [hready]
      dsimp only at hstep
      split at hstep
      · next hstarted =>
          cases hstep
          exact readyLoop_moves h hr (Or.inl hstarted)
      · cases hstep
        exact failReady_moves _ h hr
      · cases hstep
  | waiting gate =>
      rw [hready] at hstep
      have hr : lease.ready ≠ .fulfilled := by simp [hready]
      dsimp only at hstep
      split at hstep
      · next g hgate =>
          cases hstep
          split_ifs with hclosed
          · exact failReady_moves _ h hr
          · rw [Bool.or_eq_true, not_or, Bool.not_eq_true, Bool.not_eq_true] at hclosed
            exact Move.moves (.readyResolving i lease h hr hclosed.1
              (Or.inr (by rw [hready]; rfl)) hclosed.2 (Or.inr (Or.inr ⟨gate, g, hready, hgate⟩)))
      · cases hstep
        exact failReady_moves _ h hr
      · cases hstep
  | resolving g o =>
      rw [hready] at hstep
      have hr : lease.ready ≠ .fulfilled := by simp [hready]
      have hstarted : lease.ready.underway = true := by rw [hready]; rfl
      dsimp only at hstep
      split at hstep
      · cases hstep
        exact readyCaught_moves g _ h hr hstarted
      · cases hstep
        split_ifs with hclosed hstale
        · exact readyCaught_moves g _ h hr hstarted
        · exact readyLoop_moves h hr (Or.inr hstarted)
        · rw [Bool.or_eq_true, not_or, Bool.not_eq_true, Bool.not_eq_true] at hclosed
          exact Move.moves (.readyChecking i lease g o _ h hready hclosed.2
            (Bool.not_eq_true _ ▸ hstale))
      · cases hstep
  | checking g o identity =>
      rw [hready] at hstep
      have hr : lease.ready ≠ .fulfilled := by simp [hready]
      have hstarted : lease.ready.underway = true := by rw [hready]; rfl
      dsimp only at hstep
      split at hstep
      · cases hstep
        exact readyCaught_moves g _ h hr hstarted
      · next ho =>
          cases hstep
          split_ifs
          · exact readyCaught_moves g _ h hr hstarted
          · exact Move.moves (.readyValidating i lease g o identity h hready (by simp [ho]))
      · cases hstep
  | validating g o identity =>
      rw [hready] at hstep
      dsimp only at hstep
      rw [Option.map_eq_some_iff] at hstep
      obtain ⟨outcome, ho, rfl⟩ := hstep
      have hcause : w.available = false → w.LossCause :=
        fun _ => .ready i lease g o identity h hready
      have hsome : w.answered o = true := by
        rw [answered, ho]
        rfl
      have hvalidate := validate_moves (D := D) identity outcome hcause
      have hkept : (w.validate identity outcome).1.leases[i]? = some lease ∧
          (w.validate identity outcome).1.answered o = true := by
        cases outcome with
        | error failure =>
            rw [validate]
            dsimp only
            split_ifs
            · exact ⟨by rw [lost_leases]; exact h, lost_answered _ hsome⟩
            · exact ⟨h, hsome⟩
        | ok value => exact ⟨h, hsome⟩
      split
      · next u _ hu =>
          rw [hu] at hvalidate hkept
          exact hvalidate.tail (.readyValidated i lease g o identity hkept.1 hready hkept.2)
      · next u failure hu =>
          rw [hu] at hvalidate hkept
          exact hvalidate.tail (.readyInvalid i lease g o identity failure hkept.1 hready hkept.2)
  | validated g identity =>
      rw [hready] at hstep
      have hr : lease.ready ≠ .fulfilled := by simp [hready]
      have hstarted : lease.ready.underway = true := by rw [hready]; rfl
      cases hstep
      rw [Entry.validated]
      split_ifs with hclosed
      · exact readyCaught_moves g _ h hr hstarted
      · exact readyLoop_moves h hr (Or.inr hstarted)
      · exact readyCaught_moves g _ h hr hstarted
      · rw [Bool.or_eq_true, not_or, Bool.not_eq_true, Bool.not_eq_true] at hclosed
        have hroute : Move D w (w.route i lease.table identity) :=
          .routed i lease g identity h hready hclosed.1 hclosed.2
        have hrouted : (w.route i lease.table identity).leases[i]? =
            some { lease with key := some identity.key, ready := .fulfilled } := by
          simp [route, h]
        exact hroute.moves.trans (becomeReady_moves hrouted rfl hclosed.2)
  | invalid g failure =>
      rw [hready] at hstep
      cases hstep
      exact readyCaught_moves g _ h (by simp [hready]) (by rw [hready]; rfl)
  | fulfilled =>
      rw [hready] at hstep
      cases hstep
  | rejected failure =>
      rw [hready] at hstep
      cases hstep

/-! ### `start` -/

theorem resumeStart_moves {host : Host} {stage : StartStage} {result : Entry × StartResult}
    (h : w.stage host = some stage) (hstep : w.resumeStart stage = some result) :
    Moves D w (result.1.setStart host result.2) := by
  have hthrew : ∀ failure, (∀ g o, stage ≠ .opening g o) →
      Move D w (w.setStart host (.thrown failure)) :=
    fun failure hne => .startThrew host stage failure h fun g o hg => absurd hg (hne g o)
  cases stage with
  | closing o =>
      rw [resumeStart] at hstep
      split at hstep
      · cases hstep
      · cases hstep
        exact (hthrew _ (by simp)).moves
      · next value ho =>
          cases hstep
          split_ifs with hdead
          · exact (hthrew _ (by simp)).moves
          · exact Move.moves (.startRequested host o h (by simp [ho]) (Bool.not_eq_true _ ▸ hdead))
  | opening g o =>
      rw [resumeStart] at hstep
      split at hstep
      · next failure ho =>
          cases hstep
          refine Move.moves (.startThrew host _ failure h fun g' o' hg => ?_)
          cases hg
          exact ⟨_, ho, fun c connection hc => by cases hc⟩
      · next c ho =>
          obtain ⟨connection, hc, rfl⟩ := Option.map_eq_some_iff.1 hstep
          rw [opened]
          split_ifs with hdead
          · exact Move.moves (.startRetired host g o c h ho hdead)
          · cases hshape : connection.shape with
            | dedicated =>
                exact Move.moves (.startAdopted host g o c connection h ho hc hshape
                  (Bool.not_eq_true _ ▸ hdead))
            | closable => exact Move.moves (.startRefused host g o c h ho)
            | unusable =>
                refine Move.moves (.startThrew host _ _ h fun g' o' hg => ?_)
                cases hg
                refine ⟨_, ho, fun c' connection' hc' hc'' => ?_⟩
                cases hc'
                rw [hc] at hc''
                cases hc''
                exact hshape
      · cases hstep
  | connecting g c o =>
      rw [resumeStart] at hstep
      split at hstep
      · cases hstep
      · cases hstep
        exact (hthrew _ (by simp)).moves
      · next value ho =>
          cases hstep
          exact Move.moves (.startConnected host g c o h (by simp [ho]))
  | listening g c o =>
      rw [resumeStart] at hstep
      split at hstep
      · cases hstep
      · cases hstep
        exact (hthrew _ (by simp)).moves
      · next value ho =>
          cases hstep
          dsimp only
          split_ifs with hgone
          · exact (hthrew _ (by simp)).moves
          · rw [Bool.or_eq_true, not_or, Bool.not_eq_true, decide_eq_true_iff, not_not] at hgone
            obtain ⟨hdead, rfl⟩ := hgone
            exact Move.moves (.startReturned host c o h ⟨value, ho⟩ hdead)
  | retiring =>
      cases hstep
      exact (hthrew _ (by simp)).moves

/-! ### Recovery -/

theorem loop_moves_of {r : ℕ} {recovery : Recovery} (h : w.recoveries[r]? = some recovery)
    (hr : recovery.attempting = true) (hfired : w.dead = true ∨ w.fired = true) :
    Moves D w (if w.dead then w.setRecovery r .ended else w.loop r) := by
  split_ifs with hdead
  · refine Move.moves (.ended r recovery h ?_ ?_ (Or.inl hdead))
    · cases recovery <;> simp_all [Recovery.active, Recovery.attempting]
    · cases recovery <;> simp_all [stage, Recovery.attempting]
  · have hlooped : Move D w (w.setRecovery r .looping) :=
      .looped r recovery h hr (Bool.not_eq_true _ ▸ hdead) (hfired.resolve_left hdead)
    rw [← loop_setRecovery r .looping]
    exact hlooped.moves.trans (loop_moves (setRecovery_get h _))

theorem loop_of_dead {r : ℕ} (h : w.dead = true) : w.loop r = w.setRecovery r .ended := by
  rw [loop, if_pos (by simp [h])]

theorem caught_moves {r : ℕ} {recovery : Recovery} (failure : Failure)
    (h : w.recoveries[r]? = some recovery) (hr : recovery.attempting = true) :
    Moves D w (w.caught r failure) := by
  have hloop : ∀ u : Entry, u.recoveries[r]? = some recovery → u.dead = true ∨ u.fired = true →
      Moves D u (u.loop r) := by
    intro u hu hgone
    have hmoves := loop_moves_of (D := D) hu hr hgone
    split_ifs at hmoves with hdead
    · rwa [loop_of_dead hdead]
    · exact hmoves
  rw [caught]
  split_ifs with hdead hfired
  · have hmoves := loop_moves_of (D := D) h hr (Or.inl hdead)
    rwa [if_pos hdead] at hmoves
  · exact hloop w h (Or.inr hfired)
  all_goals
    refine (lost_moves _ fun _ => .recovery r recovery h ?_).trans
      (hloop _ (lost_recoveries _ h) (lost_dead_or_fired _))
    cases recovery <;> simp_all [Recovery.reporting, Recovery.attempting]

/-- The end of the loop over the leases. -/
theorem recovered_moves {r g : ℕ} {source : Recovery} (h : w.recoveries[r]? = some source)
    (hsource : w.LeaseSource source g)
    (hblind : source = .started → D .blind ∨ w.dead = true ∨ w.fired = false)
    (habandoned : (∃ rest, source = .failing g rest) →
      D .abandoned ∨ w.dead = true ∨ g = w.generation) : Moves D w (w.recovered r g) := by
  have hhost : source.active = true ∧ w.stage (.recovery r) = none := by
    rw [stage, h]
    cases hsource with
    | started => exact ⟨rfl, rfl⟩
    | revalidating _ _ hr => cases source <;> simp_all [Recovery.revalidating, Recovery.active]
    | failing => exact ⟨rfl, rfl⟩
  by_cases hdead : w.dead = true
  · rw [Entry.recovered, if_pos (by simp [hdead])]
    exact Move.moves (.ended r source h hhost.1 hhost.2 (Or.inl hdead))
  by_cases hlive : w.live = []
  · rw [Entry.recovered, if_pos (by simp [hlive])]
    exact Move.moves (.ended r source h hhost.1 hhost.2 (Or.inr hlive))
  have hdead' : w.dead = false := Bool.not_eq_true _ ▸ hdead
  by_cases hg : g = w.generation
  · subst hg
    exact Move.moves (.recovered r source h hsource hdead' hlive fun hstarted =>
      (hblind hstarted).imp_right fun h => h.resolve_left hdead)
  · rw [Entry.recovered, if_pos (by simp [hg])]
    exact Move.moves (.abandoned r g source h hsource hg hdead' fun hfailing =>
      (habandoned hfailing).resolve_right fun h => h.elim hdead hg)

/-- The loop over leases. A lease it does not pass over keeps it from making the entry
available blindly, and from abandoning it. -/
theorem leaseLoop_moves {r g : ℕ} {source : Recovery} {rest : List ℕ}
    (h : w.recoveries[r]? = some source) (hsource : w.LeaseSource source g)
    (hblind : source = .started → D .blind ∨ w.dead = true ∨ w.fired = false ∨
      ∃ i ∈ rest, w.skips i = false)
    (habandoned : (∃ rest, source = .failing g rest) → D .abandoned ∨ w.dead = true ∨
      g = w.generation ∨ ∃ i ∈ rest, w.skips i = false) : Moves D w (w.leaseLoop r g rest) := by
  induction rest with
  | nil =>
      refine recovered_moves h hsource (fun hstarted => ?_) fun hfailing => ?_
      · simpa using hblind hstarted
      · simpa using habandoned hfailing
  | cons i rest ih =>
      have hrest : w.skips i = true → (∃ j ∈ i :: rest, w.skips j = false) →
          ∃ j ∈ rest, w.skips j = false := by
        rintro hskip ⟨j, hj, hnot⟩
        rcases List.mem_cons.1 hj with rfl | hj
        · rw [hskip] at hnot
          cases hnot
        · exact ⟨j, hj, hnot⟩
      rw [leaseLoop]
      split_ifs with hskip
      · exact ih (fun hstarted => (hblind hstarted).imp_right
            (Or.imp_right (Or.imp_right (hrest hskip))))
          fun hfailing => (habandoned hfailing).imp_right
            (Or.imp_right (Or.imp_right (hrest hskip)))
      · exact Move.moves (.resolving r g i rest source h hsource)

/-- The loop goes on from a stage at which the signal has not fired. -/
theorem leaseLoop_moves_of_revalidating {r g : ℕ} {source : Recovery} (rest : List ℕ)
    (h : w.recoveries[r]? = some source) (hr : source.revalidating g) (hfired : w.fired = false) :
    Moves D w (w.leaseLoop r g rest) := by
  refine leaseLoop_moves h (.revalidating source g hr hfired)
    (fun _ => Or.inr (Or.inr (Or.inl hfired))) ?_
  rintro ⟨js, rfl⟩
  exact hr.elim

theorem leaseCaught_moves {r g i : ℕ} {rest : List ℕ} {recovery : Recovery} (failure : Failure)
    (h : w.recoveries[r]? = some recovery) (hr : recovery.revalidating g) :
    Moves D w (w.leaseCaught r g i rest failure) := by
  have hattempting : recovery.attempting = true := by
    cases recovery <;> simp_all [Recovery.attempting, Recovery.revalidating]
  rw [leaseCaught]
  split_ifs with hfired hkind hreleased
  · exact caught_moves failure h hattempting
  · exact leaseLoop_moves_of_revalidating rest h hr (Bool.not_eq_true _ ▸ hfired)
  · exact Move.moves (.failing r g i rest recovery failure h hr
      (Bool.not_eq_true _ ▸ hfired) (Bool.not_eq_true _ ▸ hreleased))
  · exact caught_moves readerFailure h hattempting

theorem resumeRecovery_moves {r : ℕ} {recovery : Recovery}
    (h : w.recoveries[r]? = some recovery) (hstep : w.resumeRecovery r recovery = some w')
    (hblind : w.resumesBlind (.resumeRecovery r) = true → D .blind) : Moves D w w' := by
  cases recovery with
  | delayed =>
      rw [resumeRecovery] at hstep
      split at hstep
      · next hdead =>
          cases hstep
          exact Move.moves (.ended r _ h rfl (by simp [stage, h]) (Or.inl hdead))
      · cases hstep
  | threw failure =>
      cases hstep
      exact caught_moves failure h rfl
  | started =>
      cases hstep
      refine leaseLoop_moves h .started (fun _ => ?_) (by simp)
      by_contra hnot
      rw [not_or, not_or, not_or, Bool.not_eq_true, Bool.not_eq_false, not_exists] at hnot
      obtain ⟨hD, hdead, hfired, hnone⟩ := hnot
      refine hD (hblind ?_)
      rw [resumesBlind, h, hdead, hfired]
      simp only [decide_true, Bool.not_false, Bool.and_self, Bool.true_and, List.all_eq_true]
      exact fun i hi => Bool.not_eq_false _ ▸ fun hskip => hnone i ⟨hi, hskip⟩
  | resolving g o i rest =>
      rw [resumeRecovery] at hstep
      split at hstep
      · cases hstep
        exact leaseCaught_moves _ h rfl
      · next identity ho =>
          cases hstep
          split_ifs
          · exact leaseCaught_moves _ h rfl
          · exact Move.moves (.checking r g o i rest identity h ⟨_, ho⟩)
      · cases hstep
  | checking g o identity i rest =>
      rw [resumeRecovery] at hstep
      split at hstep
      · cases hstep
        exact leaseCaught_moves _ h rfl
      · next ho =>
          cases hstep
          split_ifs
          · exact leaseCaught_moves _ h rfl
          · exact Move.moves (.validating r g o i rest identity h (by simp [ho]))
      · cases hstep
  | validating g o identity i rest =>
      rw [resumeRecovery, Option.map_eq_some_iff] at hstep
      obtain ⟨outcome, -, rfl⟩ := hstep
      have hvalidate := validate_moves (D := D) (w := w) identity outcome
        fun _ => .recovery r _ h rfl
      have hkept : (w.validate identity outcome).1.recoveries[r]? =
          some (.validating g o identity i rest) := by
        cases outcome with
        | error failure =>
            rw [validate]
            dsimp only
            split_ifs
            · exact lost_recoveries _ h
            · exact h
        | ok value => exact h
      split
      · next u _ hu =>
          rw [hu] at hvalidate hkept
          exact hvalidate.tail (.validated r g o i rest identity hkept)
      · next u failure hu =>
          rw [hu] at hvalidate hkept
          exact hvalidate.tail (.invalid r g o i rest identity failure hkept)
  | validated g identity i rest =>
      cases hstep
      rw [Entry.revalidated]
      by_cases hfired : w.fired = true
      · rw [if_pos hfired]
        exact leaseCaught_moves _ h rfl
      · rw [if_neg hfired]
        have hfired' : w.fired = false := Bool.not_eq_true _ ▸ hfired
        split
        · next table key ready hlease =>
            by_cases hdead : w.dead = true
            · rw [if_pos hdead]
              exact leaseLoop_moves_of_revalidating rest h rfl hfired'
            · rw [if_neg hdead]
              have hset : Move D w { w with identities := w.identities.set table identity } :=
                .identified _ (Bool.not_eq_true _ ▸ hdead)
              exact hset.moves.trans (leaseLoop_moves_of_revalidating
                (w := { w with identities := w.identities.set table identity }) rest h rfl
                hfired')
        · exact leaseLoop_moves_of_revalidating rest h rfl hfired'
  | invalid g failure i rest =>
      cases hstep
      exact leaseCaught_moves _ h rfl
  | looping => cases hstep
  | starting stage => cases hstep
  | failing g rest => cases hstep
  | ended => cases hstep

/-! ### Steps -/

theorem resumeHeartbeat_moves {h : ℕ} {heartbeat : Heartbeat}
    (hh : w.heartbeats[h]? = some heartbeat)
    (hstep : w.resumeHeartbeat h heartbeat = some w') : Moves D w w' := by
  cases heartbeat with
  | awaiting g o =>
      rw [resumeHeartbeat] at hstep
      split at hstep
      · cases hstep
      · cases hstep
        split_ifs with hgone
        · exact Move.moves (.beatEnded h)
        · rw [Bool.or_eq_true, not_or, Bool.not_eq_true, decide_eq_true_iff, not_not] at hgone
          obtain ⟨hdead, rfl⟩ := hgone
          exact Move.moves (.beaten h o hh hdead)
      · cases hstep
        split_ifs with hg
        · subst hg
          exact (lost_moves _ fun _ => .heartbeat h o hh).tail (.beatEnded h)
        · exact Move.moves (.beatEnded h)
  | ended => cases hstep

theorem beat_moves {g : ℕ} (h : w.timer = some g) : Moves D w (w.beat g) := by
  rw [beat]
  dsimp only
  split_ifs with hgone
  · exact Move.moves .disarmed
  · rw [Bool.or_eq_true, not_or, Bool.not_eq_true, decide_eq_true_iff, not_not] at hgone
    obtain ⟨hdead, rfl⟩ := hgone
    exact Move.moves (.beating hdead h)

/-- The operations after a loss are those before it, some of them given up. -/
theorem lost_operation {o : ℕ} {op : Operation} (message : String)
    (h : w.operations[o]? = some op) :
    ∃ settled, (w.lost message).operations[o]? = some { op with settled := settled } := by
  have habort : ∀ u : Entry, (∃ settled, u.operations[o]? = some { op with settled := settled }) →
      ∃ settled, u.aborted[o]? = some { op with settled := settled } := by
    rintro u ⟨settled, hu⟩
    rw [aborted, abort, List.getElem?_map, hu, Option.map_some]
    split_ifs
    · rw [Operation.settle]
      split_ifs
      · exact ⟨settled, rfl⟩
      · exact ⟨_, rfl⟩
    · exact ⟨settled, rfl⟩
  have hlose : ∃ settled, (w.lose message).operations[o]? = some { op with settled := settled } := by
    have hops : (w.lose message).operations = w.aborted := closeConnection_operations
    rw [hops]
    exact habort w ⟨op.settled, h⟩
  unfold lost
  split_ifs
  · exact ⟨op.settled, h⟩
  · rcases terminate_operations (w := w) (.plain message) with hops | hops <;> rw [hops]
    · exact ⟨op.settled, h⟩
    · exact habort w ⟨op.settled, h⟩
  · exact hlose
  · rcases loop_operations (w := (w.lose message).openGate.spawn)
      (w.lose message).openGate.recoveries.length with hops | hops
    all_goals rw [recover, hops]
    · exact hlose
    · exact habort _ hlose

theorem answer_moves {o : ℕ} {op : Operation} {outcome : Outcome}
    (h : w.operations[o]? = some op) (hphase : op.phase = .sent)
    (hanswers : op.target.answers outcome = true) :
    Moves D w (w.answer o op.target outcome) := by
  unfold answer
  split
  · next failure htarget =>
      refine Move.moves (.answered o op _ h hphase ?_)
      rw [htarget]
      rfl
  · next g failure htarget =>
      split_ifs with hcurrent
      · rw [Bool.and_eq_true, decide_eq_true_iff] at hcurrent
        obtain ⟨-, rfl⟩ := hcurrent
        obtain ⟨settled, hop⟩ := lost_operation (w := w)
          "PostgreSQL change listener lost: database verification failure" h
        refine (lost_moves _ fun _ => .database o op h htarget hphase).tail
          (.answered o _ _ hop hphase ?_)
        rw [htarget]
        rfl
      · refine Move.moves (.answered o op _ h hphase ?_)
        rw [htarget]
        rfl
  · exact Move.moves (.answered o op _ h hphase hanswers)

theorem call_moves (hstep : w.call = some w')
    (habandoned : w.abandons .call = true → D .abandoned) : Moves D w w' := by
  rw [call] at hstep
  split at hstep
  · cases hstep
  · next n stack hstack =>
      cases hstep
      exact Move.moves (.fanEnded n stack hstack)
  · next n i rest stack hstack =>
      cases hstep
      split_ifs with hreleased
      · exact Move.moves (.fanSkipped n i rest stack hstack hreleased)
      · exact Move.moves (.fanCalled n i rest stack hstack (Bool.not_eq_true _ ▸ hreleased))
  · next r stack hstack =>
      split at hstep
      · next g rest h =>
          cases hstep
          have hresumed : Move D w { w with stack := stack } := .resumed r stack hstack
          refine hresumed.moves.trans (leaseLoop_moves (w := { w with stack := stack }) h
            (.failing g rest) (by simp) fun _ => ?_)
          by_contra hnot
          rw [not_or, not_or, not_or, Bool.not_eq_true, not_exists] at hnot
          obtain ⟨hD, hdead, hg, hnone⟩ := hnot
          refine hD (habandoned ?_)
          rw [abandons, hstack]
          dsimp only
          rw [h]
          have hlive : w.dead = false := hdead
          simp only [hlive, Bool.not_false, Bool.true_and, Bool.and_eq_true, decide_eq_true_iff,
            List.all_eq_true]
          exact ⟨hg, fun i hi => Bool.not_eq_false _ ▸ fun hskip => hnone i ⟨hi, hskip⟩⟩
      · cases hstep
  · next stack hstack =>
      cases hstep
      exact Move.moves (.closed stack hstack)

theorem disconnect_moves {c g : ℕ} (error : Bool)
    (h : (w.connections[c]?.bind Connection.registered) = some g) :
    Moves D w (w.disconnect g error) := by
  rw [disconnect]
  by_cases hcurrent : (!w.dead && decide (g = w.generation)) = true
  · rw [if_pos hcurrent]
    rw [Bool.and_eq_true, decide_eq_true_iff] at hcurrent
    obtain ⟨-, rfl⟩ := hcurrent
    exact lost_moves _ fun _ => .disconnect c h
  · rw [if_neg hcurrent]
    exact Relation.ReflTransGen.refl

theorem notify_moves {c g : ℕ} (channel : String) (payload : Option String)
    (h : (w.connections[c]?.bind Connection.registered) = some g) :
    Moves D w (w.notify c g channel payload) := by
  cases payload with
  | none => exact Relation.ReflTransGen.refl
  | some payload =>
      rw [notify]
      split_ifs with hgone
      · exact Relation.ReflTransGen.refl
      · simp only [Bool.or_eq_true, not_or, Bool.not_eq_true, decide_eq_false_iff_not,
          not_not] at hgone
        obtain ⟨⟨⟨hdead, rfl⟩, -⟩, -⟩ := hgone
        exact Move.moves (.notified c payload h hdead)

/-- A step is a sequence of moves, whose defects the step commits. -/
theorem step_moves {e : Event} (hstep : w.step e = some w')
    (hcommits : ∀ d, w.commits e d = true → D d) : Moves D w w' := by
  rw [step] at hstep
  split_ifs at hstep with hstack
  cases e with
  | «open» previousClose =>
      rw [perform] at hstep
      split_ifs at hstep with h
      cases hstep
      exact Move.moves (.opened previousClose h.1 (Bool.not_eq_true _ ▸ h.2))
  | acquire table =>
      rw [perform] at hstep
      split_ifs at hstep with h
      cases hstep
      rw [Bool.or_eq_true, not_or, Bool.not_eq_true, decide_eq_true_iff] at h
      exact Move.moves (.acquired table h.2 h.1)
  | release i =>
      cases hstep
      exact release_moves i
  | dispose =>
      cases hstep
      by_cases hdead : w.dead = true
      · rw [dispose, if_pos hdead]
        exact Relation.ReflTransGen.refl
      · exact Move.moves (.disposed (Bool.not_eq_true _ ▸ hdead))
  | call => exact call_moves hstep (hcommits .abandoned)
  | send o =>
      rw [perform] at hstep
      split at hstep
      · next op h =>
          split_ifs at hstep with hphase
          cases hstep
          refine Move.moves (.sent o op (by simpa [Event.synchronous] using hstack) h hphase ?_)
          by_contra hnot
          rw [not_or, not_or] at hnot
          obtain ⟨hD, hsettled, hreceiver⟩ := hnot
          refine hD (hcommits .retiredQuery ?_)
          rw [commits, sendsRetired, h]
          simpa [Option.isSome_iff_ne_none] using ⟨hsettled, hreceiver⟩
      · cases hstep
  | answer o outcome =>
      rw [perform] at hstep
      split at hstep
      · next op h =>
          split_ifs at hstep with hanswered
          cases hstep
          exact answer_moves h hanswered.1 hanswered.2
      · cases hstep
  | produce o shape =>
      rw [perform] at hstep
      split at hstep
      · next op h =>
          split_ifs at hstep with hproduced
          cases hstep
          exact Move.moves (.produced o op shape h hproduced.1 hproduced.2)
      · cases hstep
  | timeout o =>
      rw [perform] at hstep
      split at hstep
      · next op h =>
          split_ifs at hstep with hexpired
          cases hstep
          have hphase : op.phase ≠ .queued := by
            have hquiet := hexpired.1
            simp only [quiet, Bool.and_eq_true, List.all_eq_true] at hquiet
            simpa using hquiet.1.1.1.1.2 op (List.mem_of_getElem? h)
          rw [timeout]
          split_ifs with hlistener
          · exact lost_settle_moves _ _ h hphase (Option.isNone_iff_eq_none.1 hexpired.2) hlistener
          · exact Move.moves (.expired o op _ h hphase)
      · cases hstep
  | resumeStart host =>
      obtain ⟨stage, hstage, hstep⟩ := Option.bind_eq_some_iff.1 hstep
      obtain ⟨result, hresult, rfl⟩ := Option.map_eq_some_iff.1 hstep
      exact resumeStart_moves hstage hresult
  | rejectStartup =>
      rw [perform] at hstep
      split at hstep
      · next thrown h =>
          cases hstep
          rw [failStartup]
          have hrejected : Move D (w.terminate w.startFailure)
              { w.terminate w.startFailure with startup := .rejected w.startFailure } :=
            .startupRejected _ thrown ((terminate_startup _).trans h) (terminate_dead _)
          by_cases hdead : w.dead = true
          · rw [terminate, if_pos hdead] at hrejected ⊢
            exact hrejected.moves
          · exact (Move.moves (.terminated _ (Bool.not_eq_true _ ▸ hdead))).tail hrejected
      · cases hstep
  | resumeReady i =>
      obtain ⟨lease, hlease, hstep⟩ := Option.bind_eq_some_iff.1 hstep
      exact resumeReady_moves hlease hstep
  | resumeRecovery r =>
      obtain ⟨recovery, hrecovery, hstep⟩ := Option.bind_eq_some_iff.1 hstep
      exact resumeRecovery_moves hrecovery hstep (hcommits .blind)
  | attempt r previousClose =>
      rw [perform] at hstep
      split_ifs at hstep with h
      cases hstep
      exact Move.moves (.attempted r previousClose h.2 h.1)
  | beat =>
      rw [perform] at hstep
      split_ifs at hstep
      obtain ⟨g, hg, rfl⟩ := Option.map_eq_some_iff.1 hstep
      exact beat_moves hg
  | resumeHeartbeat h =>
      obtain ⟨heartbeat, hheartbeat, hstep⟩ := Option.bind_eq_some_iff.1 hstep
      exact resumeHeartbeat_moves hheartbeat hstep
  | disconnect c error =>
      obtain ⟨g, hg, rfl⟩ := Option.map_eq_some_iff.1 hstep
      exact disconnect_moves error hg
  | notify c channel payload =>
      obtain ⟨g, hg, rfl⟩ := Option.map_eq_some_iff.1 hstep
      exact notify_moves channel payload hg

end Entry

namespace PostgreSQLObservationManager

/-- The mistakes the step of a manager commits. -/
def commits (m : PostgreSQLObservationManager) : ManagerEvent → Defect → Bool
  | .entry k e, d => m.entries[k]?.any fun w => w.commits e d
  | _, _ => false

variable {m m' : PostgreSQLObservationManager} {P : Entry → Prop} {D : Defect → Prop}

theorem mem_update {k : ℕ} {w u : Entry} (h : u ∈ (m.update k w).entries) :
    u ∈ m.entries ∨ u = w := List.mem_or_eq_of_mem_set h

/-- A step of the manager is a step of one of its entries, or makes an entry. -/
theorem step_entries {e : ManagerEvent} (hstep : m.step e = some m')
    (hnew : ∀ tenant, P (Entry.new tenant m.delays))
    (hentry : ∀ w e' w', P w → w.step e' = some w' →
      (∀ d, w.commits e' d = true → m.commits e d = true) → P w')
    (hm : ∀ w ∈ m.entries, P w) : ∀ w ∈ m'.entries, P w := by
  have hkept : ∀ {k w w'} (_ : m.entries[k]? = some w) (_ : P w'),
      ∀ u ∈ (m.update k w').entries, P u := by
    intro k w w' hk hw' u hu
    rcases mem_update hu with hu | rfl
    · exact hm u hu
    · exact hw'
  cases e with
  | acquire tenant table previousClose =>
      rw [step] at hstep
      split_ifs at hstep
      split at hstep
      · next k _ =>
          obtain ⟨w, hw, hstep⟩ := Option.bind_eq_some_iff.1 hstep
          obtain ⟨w', hw', rfl⟩ := Option.map_eq_some_iff.1 hstep
          exact hkept hw (hentry w _ w' (hm w (List.mem_of_getElem? hw)) hw'
            (by intro d hd; cases d <;> simp [Entry.commits, Entry.abandons, Entry.resumesBlind,
              Entry.sendsRetired] at hd))
      · obtain ⟨w, hw, hstep⟩ := Option.bind_eq_some_iff.1 hstep
        obtain ⟨w', hw', rfl⟩ := Option.map_eq_some_iff.1 hstep
        intro u hu
        rcases List.mem_append.1 hu with hu | hu
        · exact hm u hu
        · obtain rfl := List.mem_singleton.1 hu
          have hopened : P w := hentry _ _ w (hnew tenant) hw
            (by intro d hd; cases d <;> simp [Entry.commits, Entry.abandons, Entry.resumesBlind,
              Entry.sendsRetired] at hd)
          exact hentry w _ u hopened hw'
            (by intro d hd; cases d <;> simp [Entry.commits, Entry.abandons, Entry.resumesBlind,
              Entry.sendsRetired] at hd)
  | entry k e =>
      rw [step] at hstep
      split_ifs at hstep
      obtain ⟨w, hw, hstep⟩ := Option.bind_eq_some_iff.1 hstep
      obtain ⟨w', hw', rfl⟩ := Option.map_eq_some_iff.1 hstep
      refine hkept hw (hentry w e w' (hm w (List.mem_of_getElem? hw)) hw' fun d hd => ?_)
      rw [commits, hw]
      exact hd
  | dispose =>
      rw [step] at hstep
      split_ifs at hstep <;> cases hstep <;> exact hm
  | shutdownNext =>
      rw [step] at hstep
      split at hstep
      · cases hstep
      · next k rest _ =>
          obtain ⟨w, hw, hstep⟩ := Option.bind_eq_some_iff.1 hstep
          obtain ⟨w', hw', rfl⟩ := Option.map_eq_some_iff.1 hstep
          exact hkept hw (hentry w _ w' (hm w (List.mem_of_getElem? hw)) hw'
            (by intro d hd; cases d <;> simp [Entry.commits, Entry.abandons, Entry.resumesBlind,
              Entry.sendsRetired] at hd))

theorem step_delays {e : ManagerEvent} (hstep : m.step e = some m') : m'.delays = m.delays := by
  cases e with
  | acquire tenant table previousClose =>
      rw [step] at hstep
      split_ifs at hstep
      split at hstep
      all_goals
        obtain ⟨w, -, hstep⟩ := Option.bind_eq_some_iff.1 hstep
        obtain ⟨w', -, rfl⟩ := Option.map_eq_some_iff.1 hstep
        rfl
  | entry k e =>
      rw [step] at hstep
      split_ifs at hstep
      obtain ⟨w, -, hstep⟩ := Option.bind_eq_some_iff.1 hstep
      obtain ⟨w', -, rfl⟩ := Option.map_eq_some_iff.1 hstep
      rfl
  | dispose =>
      rw [step] at hstep
      split_ifs at hstep <;> cases hstep <;> rfl
  | shutdownNext =>
      rw [step] at hstep
      split at hstep
      · cases hstep
      · obtain ⟨w, -, hstep⟩ := Option.bind_eq_some_iff.1 hstep
        obtain ⟨w', -, rfl⟩ := Option.map_eq_some_iff.1 hstep
        rfl

/-- What holds of a new entry and is kept by every move allowed by `D` holds of every entry
along a run that commits nothing else. -/
theorem entries_of_moves {delays : List ℕ} {es : List ManagerEvent}
    (hnew : ∀ tenant, P (Entry.new tenant delays))
    (hmove : ∀ u u', P u → Entry.Move D u u' → P u')
    (hwithin : (machine delays).Within
      (fun m e => ∀ d, m.commits e d = true → D d) (new delays) es)
    (hrun : (machine delays).exec (new delays) es = some m) : ∀ w ∈ m.entries, P w := by
  have hinv : m.delays = delays ∧ ∀ w ∈ m.entries, P w := by
    refine (machine delays).exec_preserves
      (P := fun m => m.delays = delays ∧ ∀ w ∈ m.entries, P w) ?_ ⟨rfl, by simp [new]⟩ hwithin
      hrun
    rintro m e m' ⟨hdelays, hm⟩ hcommits hstep
    refine ⟨(step_delays hstep).trans hdelays, step_entries hstep (hdelays ▸ hnew) ?_ hm⟩
    intro w e' w' hw hw' hcommits'
    exact Entry.Moves.preserves hmove hw
      (Entry.step_moves hw' fun d hd => hcommits d (hcommits' d hd))
  exact hinv.2

/-- What holds of a new entry and is kept by every move holds of every entry of a reachable
manager. -/
theorem Reachable.entries {delays : List ℕ} (h : (machine delays).Reachable m)
    (hnew : ∀ tenant, P (Entry.new tenant delays))
    (hmove : ∀ u u', P u → Entry.Move (fun _ => True) u u' → P u') : ∀ w ∈ m.entries, P w := by
  obtain ⟨es, hrun⟩ := h
  refine entries_of_moves hnew hmove ?_ hrun
  have htrue : ∀ (s : PostgreSQLObservationManager) (es : List ManagerEvent),
      (machine delays).Within (fun m e => ∀ d, m.commits e d = true → True) s es := by
    intro s es
    induction es generalizing s with
    | nil => exact trivial
    | cons e es ih => exact ⟨fun _ _ => trivial, fun t _ => ih t⟩
  exact htrue _ es

end PostgreSQLObservationManager

end Arc.Drizzle.PostgreSQLObservation
