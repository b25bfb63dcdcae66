import Arc.Drizzle.CallbackLoops
import Arc.Drizzle.EntryLifecycle

/-!
# The delays of a recovery

An attempt to recover starts with a delay, and a successful heartbeat gives the delays
back. A live entry has used at most the configured delays since its last heartbeat; one that
needs another is retired, and all its leases are failed. `CaughtUp` says of a step that it
makes an entry available again only by starting the loop that calls the leases.
-/

namespace Arc.Drizzle.PostgreSQLObservation

/-- The delays after the last successful heartbeat. -/
def delaysSince (log : List Effect) : ℕ :=
  log.foldl (fun n effect =>
    match effect with
    | .delay => n + 1
    | .heartbeat => 0
    | _ => n) 0

/-- The effects that are neither a delay nor a heartbeat. -/
def Effect.untimed : Effect → Bool
  | .delay | .heartbeat => false
  | _ => true

theorem delaysSince_concat (log : List Effect) (effect : Effect) :
    delaysSince (log ++ [effect]) =
      match effect with
      | .delay => delaysSince log + 1
      | .heartbeat => 0
      | _ => delaysSince log := by
  rw [delaysSince, List.foldl_append]
  rfl

theorem delaysSince_of_untimed (log : List Effect) {effect : Effect}
    (h : effect.untimed = true) : delaysSince (log ++ [effect]) = delaysSince log := by
  rw [delaysSince_concat]
  cases effect <;> first | rfl | cases h

namespace Entry

/-- Whether recovery calls every lease that is left. -/
structure Budget (dead : Bool) (delays : List ℕ) (retries since : ℕ) (flags : List Bool)
    (fanouts : List Fanout) : Prop where
  bound : since ≤ delays.length
  spent : dead = false → since = retries
  exhausted : delays.length < retries → dead = true ∧ ∃ (n : ℕ) (fan : Fanout),
    fanouts[n]? = some fan ∧ (∃ failure, fan.cause = .terminated failure) ∧
      ∀ i, flags[i]? = some false → i ∈ fan.targets

namespace Budget

variable {dead : Bool} {delays : List ℕ} {retries since : ℕ} {flags : List Bool}
  {fanouts : List Fanout}

/-- A lease is released, or a fan-out starts. -/
theorem mono (h : Budget dead delays retries since flags fanouts) {flags' : List Bool}
    {fanouts' : List Fanout}
    (hflags : dead = true → ∀ i : ℕ, flags'[i]? = some false → flags[i]? = some false)
    (hfanouts : ∀ (n : ℕ) (fan : Fanout), fanouts[n]? = some fan → fanouts'[n]? = some fan) :
    Budget dead delays retries since flags' fanouts' := by
  refine ⟨h.bound, h.spent, fun hspent => ?_⟩
  obtain ⟨hdead, n, fan, hfan, hcause, hall⟩ := h.exhausted hspent
  exact ⟨hdead, n, fan, hfanouts n fan hfan, hcause, fun i hi => hall i (hflags hdead i hi)⟩

theorem fanOut (h : Budget dead delays retries since flags fanouts) (fan : Fanout) :
    Budget dead delays retries since flags (fanouts ++ [fan]) := by
  refine h.mono (fun _ _ hi => hi) fun n other hn => ?_
  obtain ⟨hlt, -⟩ := List.getElem?_eq_some_iff.1 hn
  rw [List.getElem?_append_left hlt]
  exact hn

theorem retire (h : Budget dead delays retries since flags fanouts) :
    Budget true delays retries since flags fanouts := by
  refine ⟨h.bound, fun hlive => by simp at hlive, fun hspent => ?_⟩
  obtain ⟨-, hfan⟩ := h.exhausted hspent
  exact ⟨rfl, hfan⟩

end Budget

/-- The budget of an entry. -/
def Spent (w : Entry) : Prop :=
  Budget w.dead w.delays w.retries (delaysSince w.log) w.releasedFlags w.fanouts

variable {D : Defect → Prop} {w w' : Entry}

theorem delaysSince_closeConnection :
    delaysSince w.closeConnection.log = delaysSince w.log := by
  unfold closeConnection
  split
  · rfl
  · exact delaysSince_of_untimed w.log rfl

/-- What the budget reads is the same. -/
theorem Spent.congr (h : w.Spent) (hdead : w'.dead = w.dead) (hdelays : w'.delays = w.delays)
    (hretries : w'.retries = w.retries) (hsince : delaysSince w'.log = delaysSince w.log)
    (hflags : w'.releasedFlags = w.releasedFlags) (hfanouts : w'.fanouts = w.fanouts) :
    w'.Spent := by
  rw [Spent, hdead, hdelays, hretries, hsince, hflags, hfanouts]
  exact h

theorem Spent.new (tenant : String) (delays : List ℕ) : (Entry.new tenant delays).Spent where
  bound := Nat.zero_le _
  spent _ := rfl
  exhausted h := by simp [Entry.new] at h

theorem Spent.record (h : w.Spent) {effect : Effect} (heffect : effect.untimed = true) :
    (w.record effect).Spent :=
  h.congr rfl rfl rfl (delaysSince_of_untimed w.log heffect) rfl rfl

theorem Spent.setReady (h : w.Spent) (i : ℕ) (ready : Ready) : (w.setReady i ready).Spent :=
  h.congr rfl rfl rfl rfl
    (releasedFlags_modify (fun lease => { lease with ready := ready }) (fun _ => rfl) i) rfl

theorem Spent.setStart (h : w.Spent) (host : Host) (result : StartResult) :
    (w.setStart host result).Spent := by
  cases host <;> cases result <;> exact h

theorem Spent.start (h : w.Spent) (previousClose : Bool) : (w.start previousClose).1.Spent := by
  cases previousClose <;> exact h

theorem Spent.lose (h : w.Spent) (message : String) : (w.lose message).Spent := by
  rw [lose_eq]
  exact h.congr rfl rfl rfl delaysSince_closeConnection rfl rfl

theorem Spent.retired (h : w.Spent) :
    Budget true w.delays w.retries (delaysSince w.closeConnection.log) w.releasedFlags
      w.fanouts := by
  rw [delaysSince_closeConnection]
  exact h.retire

theorem Spent.release (h : w.Spent) (i : ℕ) (lease : Lease) :
    ((w.unlease i lease).forget lease.table).Spent := by
  have hunleased : (w.unlease i lease).Spent := by
    have hflags : (w.unlease i lease).releasedFlags = w.releasedFlags.set i true := by
      simp [unlease, Entry.record, releasedFlags, List.map_set]
    have hsince : delaysSince (w.unlease i lease).log = delaysSince w.log :=
      delaysSince_of_untimed w.log rfl
    rw [Spent, hflags, hsince]
    refine Budget.mono h (fun _ j hj => ?_) fun _ _ hn => hn
    by_cases hij : i = j
    · subst hij
      obtain ⟨hlt, hflag⟩ := List.getElem?_eq_some_iff.1 hj
      simp at hflag
    · rwa [List.getElem?_set_ne hij] at hj
  unfold Entry.forget
  split <;> exact hunleased

/-- An entry that needs another delay is retired, and all its leases are failed. -/
theorem Spent.exhaust (h : w.Spent) (hdead : w.dead = false) (r : ℕ) (failure : Failure) :
    (({ w with retries := w.retries + 1 }.setRecovery r .ended).terminate failure).Spent := by
  rw [terminate_eq _ (by exact hdead)]
  have hsince : delaysSince (({ w with retries := w.retries + 1 }.setRecovery r
      .ended).closeConnection.log) = delaysSince w.log := delaysSince_closeConnection
  refine ⟨?_, fun hlive => by simp [fanOut] at hlive, fun _ => ⟨rfl, w.fanouts.length,
    ⟨.terminated failure, w.live⟩, ?_, ⟨failure, rfl⟩, fun i hi => ?_⟩⟩
  · exact Nat.le_trans (Nat.le_of_eq hsince) h.bound
  · exact List.getElem?_concat_length
  · refine mem_live.2 ?_
    have hflag : (w.leases.map Lease.released)[i]? = some false := hi
    rw [List.getElem?_map, Option.map_eq_some_iff] at hflag
    obtain ⟨lease, hlease, hreleased⟩ := hflag
    exact released_eq_false_iff.2 ⟨lease, hlease, hreleased⟩

/-- Every move keeps the budget. -/
theorem Spent.move (hw : w.Spent) (h : Move D w w') : w'.Spent := by
  cases h with
  | opened previousClose => exact hw.start previousClose
  | acquired table h hdead =>
      refine Budget.mono hw (fun hdead' => ?_) fun _ _ hn => hn
      rw [show w.dead = false from hdead] at hdead'
      cases hdead'
  | unleased i lease => exact hw.release i lease
  | unleasedLast i lease h hr hdead =>
      have hspent := (hw.release i lease).retired
      rw [shutdown_eq (by unfold forget; split <;> exact hdead)]
      exact hspent
  | disposed hdead =>
      rw [dispose_eq hdead]
      exact Budget.fanOut (Budget.retire hw) _
  | terminated failure hdead =>
      rw [terminate_eq failure hdead]
      exact hw.retired.fanOut _
  | exhausted r h hdead => exact hw.exhaust hdead r _
  | lostAvailable message => exact hw.lose message
  | lostRecovering message => exact hw.lose message
  | lostExpired o op failure message => exact Spent.lose (by exact hw) message
  | startThrew host | startReturned host => exact hw.setStart _ _
  | startRequested host | startAdopted host | startConnected host =>
      exact Spent.setStart (by exact hw) _ _
  | startRetired host | startRefused host => exact (hw.record rfl).setStart _ _
  | readyFailed i | readyWaiting i | readyValidated i | readyInvalid i => exact hw.setReady i _
  | readyResolving i | readyChecking i | readyValidating i =>
      exact Spent.setReady (by exact hw) i _
  | routed i lease g identity =>
      exact hw.congr rfl rfl rfl rfl (releasedFlags_modify
        (fun lease => { lease with key := some identity.key, ready := .fulfilled })
        (fun _ => rfl) i) rfl
  | becameReady =>
      unfold becomeReady
      split <;> exact hw
  | delayed r delay h hdead hdelay =>
      obtain ⟨hlt, -⟩ := List.getElem?_eq_some_iff.1 hdelay
      have hspent := hw.spent hdead
      have hsince : delaysSince (w.log ++ [.delay]) = w.retries + 1 := by
        rw [delaysSince_concat, hspent]
      refine ⟨?_, fun _ => hsince, fun hover => ?_⟩
      · exact Nat.le_trans (Nat.le_of_eq hsince) hlt
      · have hover' : w.delays.length < w.retries + 1 := hover
        omega
  | attempted r previousClose => exact Spent.start (w := { w with
      controller := w.controller + 1, fired := false }) hw previousClose
  | failing r g i rest => exact Budget.fanOut hw _
  | recovered r =>
      rw [Entry.recovered]
      split_ifs
      · exact hw
      · exact Budget.fanOut hw _
  | sent o op =>
      unfold Entry.send
      split
      all_goals try exact hw
      all_goals
        split
        · exact hw
        · exact Spent.record (by exact hw) rfl
  | produced o op shape =>
      unfold produce
      dsimp only
      split
      · exact Spent.record (by exact hw) rfl
      · exact hw
  | beaten h o hh hdead =>
      have hsince : delaysSince (w.log ++ [.heartbeat]) = 0 := delaysSince_concat _ _
      refine ⟨Nat.le_trans (Nat.le_of_eq hsince) (Nat.zero_le _), fun _ => hsince, fun hover => ?_⟩
      exact absurd hover (Nat.not_lt_zero _)
  | notified c payload => exact Budget.fanOut hw _
  | fanCalled n i rest stack =>
      exact Spent.record (w := { w with stack := .fan n rest :: stack }) hw rfl
  | closed stack =>
      rw [closeConnection_eq]
      exact Spent.congr (w := { w with stack := stack }) hw rfl rfl rfl delaysSince_closeConnection
        rfl rfl
  | _ => exact hw

end Entry

end Arc.Drizzle.PostgreSQLObservation
