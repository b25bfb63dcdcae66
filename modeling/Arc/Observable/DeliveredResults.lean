import Arc.Observable.DirectSse

/-!
# Results that are delivered

At most one call of `next` is under way, the frames of a stream are those of the first results in
order, and nothing follows a last result, a cancellation or a release. When a stream has ended and
its work is settled, the session was closed or its iterator has finished; after a release it is
`joinWork` that closes the session. A failure that is reported is one of the controller only when
the stream is cancelled or released while a pull closes the session after a last result.
-/

namespace Arc.Observable

open Arc.Queries (QueryResult)

variable {δ ν : Type}

/-- The result and the frame of an entry that has them. -/
def DeliveryEntry.delivered : DeliveryEntry δ ν → Option (QueryResult δ ν × Option String)
  | .data result frame => some (result, some frame)
  | _ => none

/-- Whether something was written. -/
def DeliveryEntry.isFrame : DeliveryEntry δ ν → Bool
  | .data _ _ => true
  | .keepalive => true
  | _ => false

/-- Whether nothing may follow. -/
def DeliveryEntry.isFinal : DeliveryEntry δ ν → Bool
  | .data result _ => isLast result
  | .keepalive => false
  | .cancelled => true
  | .released => true

def SessionClose.isClosed : SessionClose → Bool
  | .closed _ => true
  | _ => false

/-! ### Phases -/

/-- The result that a promise holds for the next pull. -/
def PendingNext.given : PendingNext δ ν → List (QueryResult δ ν)
  | .settled (.value result) => [result]
  | _ => []

def PendingNext.isOutstanding : PendingNext δ ν → Bool
  | .outstanding => true
  | _ => false

/-- Whether the iteration is known to be over. -/
def PendingNext.isOver : PendingNext δ ν → Bool
  | .settled .done => true
  | .settled .throws => true
  | _ => false

/-- Whether a pull has yet to take a frame. -/
def PullPhase.isTaking : PullPhase δ ν → Bool
  | .idle => true
  | .racing _ => true
  | _ => false

/-- Whether a pull closes the session after a last result. -/
def PullPhase.isEnding : PullPhase δ ν → Bool
  | .closing => true
  | .returning _ => true
  | _ => false

/-- A race is about the promise that is kept. -/
def PullPhase.Races : PullPhase δ ν → PendingNext δ ν → Prop
  | .racing none, pending => pending = .outstanding
  | .racing (some (.result outcome)), pending => pending = .settled outcome
  | _, _ => True

theorem PullPhase.races_settle {pull : PullPhase δ ν} (outcome : NextOutcome δ ν)
    (h : pull.Races .outstanding) : (pull.settle outcome).Races (.settled outcome) := by
  rcases pull with _ | (_ | _ | _) | _ | _ | _ | _
  case racing.none => rfl
  case racing.some.result => cases h
  all_goals exact trivial

theorem PullPhase.isTaking_settle (pull : PullPhase δ ν) (outcome : NextOutcome δ ν) :
    (pull.settle outcome).isTaking = pull.isTaking := by
  rcases pull with _ | (_ | _) | _ | _ | _ | _ <;> rfl

theorem PullPhase.settle_eq_returning {pull : PullPhase δ ν} {outcome : NextOutcome δ ν}
    {ok : Option Bool} : pull.settle outcome = .returning ok ↔ pull = .returning ok := by
  rcases pull with _ | (_ | _) | _ | _ | _ | _ <;> simp [PullPhase.settle]

namespace DirectSse

/-! ### Deliveries -/

/-- All tracked work of the delivery is settled. -/
def Settled (s : DirectSse δ ν) : Prop :=
  s.pull matches .idle ∧ (s.cancel = .none ∨ s.cancel = .settled)

variable (stringifyWire : QueryResult δ ν → Option String)

/-- A result with its frame. -/
def framed (result : QueryResult δ ν) : QueryResult δ ν × Option String :=
  (result, (stringifyWire result).map dataFrame)

/-- What holds of a delivery at every moment. -/
structure Delivers (s : DirectSse δ ν) : Prop where
  outstanding : s.calls ≤ s.answers + 1
  delivered : s.log.filterMap DeliveryEntry.delivered <+: s.results.map (framed stringifyWire)
  final : s.log.Pairwise fun earlier later => earlier.isFinal = true → later.isFrame = false
  closes : s.stream ≠ .readable → s.Settled → (s.released = true → s.join = .settled) →
    s.session.isClosed = true ∨ s.iteratorFinished = true

/-! ### The invariant -/

structure Invariant (s : DirectSse δ ν) : Prop where
  isOpen : s.closed = false →
    s.stream = .readable ∧ s.closeRequested = false ∧ s.pull.isTaking = true
  calls : s.calls = s.answers + s.pending.isOutstanding.toNat
  races : s.pull.Races s.pending
  delivered : ∃ rest, s.results.map (framed stringifyWire) =
    s.log.filterMap DeliveryEntry.delivered ++ rest ∧
      (s.closed = false → rest = s.pending.given.map (framed stringifyWire))
  final : s.log.Pairwise fun earlier later => earlier.isFinal = true → later.isFrame = false
  closed : ∀ entry ∈ s.log, entry.isFinal = true → s.closed = true
  completed : s.pending.isOver = true → s.iteratorFinished = true
  owned : s.closed = true → s.released = true ∨ s.cancel ≠ .none ∨ s.iteratorFinished = true ∨
    s.session.isClosed = true ∨ s.pull.isTaking = false
  returning : ∀ outcome, s.pull = .returning outcome → s.session.isClosed = true
  cancelled : s.cancel = .none ∨ s.cancel = .closing ∨ s.session.isClosed = true
  joining : ∀ ok, s.join = .returning (some ok) → s.iteratorFinished = true
  joined : s.join = .settled → s.session.isClosed = true ∨ s.iteratorFinished = true

variable {stringifyWire} {s t : DirectSse δ ν}

theorem invariant_init : Invariant stringifyWire ({} : DirectSse δ ν) := by
  constructor <;> simp [PullPhase.isTaking, PullPhase.Races, PendingNext.isOutstanding,
    PendingNext.isOver, PendingNext.given]

/-! ### Steps of the session and of its iterator -/

theorem Invariant.settleNext {outcome : NextOutcome δ ν} (h : Invariant stringifyWire s)
    (hstep : s.settleNext outcome = some t) : Invariant stringifyWire t := by
  obtain ⟨hopen, hcalls, hraces, ⟨rest, hrest, hgiven⟩, hfinal, hclosed, hover, howned, hreturning,
    hcancelled, hjoining, hjoined⟩ := h
  unfold DirectSse.settleNext at hstep
  split at hstep
  · rename_i hpending
    have hnone : s.closed = false → rest = [] := fun hopened => by
      rw [hgiven hopened, hpending]
      rfl
    have hsettling : s.pull.Races .outstanding := by rwa [hpending] at hraces
    cases outcome with
    | value result =>
        dsimp only at hstep
        split_ifs at hstep
        cases hstep
        constructor
        case delivered =>
          refine ⟨rest ++ [framed stringifyWire result], ?_, fun hopened => ?_⟩
          · rw [List.map_append, hrest, List.append_assoc]
            rfl
          · rw [hnone hopened]
            rfl
        case races => exact PullPhase.races_settle _ hsettling
        all_goals grind [PullPhase.isTaking_settle, PullPhase.settle_eq_returning,
          PendingNext.isOutstanding, PendingNext.isOver]
    | done =>
        cases hstep
        constructor
        case delivered => exact ⟨rest, hrest, hnone⟩
        case races => exact PullPhase.races_settle _ hsettling
        all_goals grind [PullPhase.isTaking_settle, PullPhase.settle_eq_returning,
          PendingNext.isOutstanding, PendingNext.isOver]
    | throws =>
        cases hstep
        constructor
        case delivered => exact ⟨rest, hrest, hnone⟩
        case races => exact PullPhase.races_settle _ hsettling
        all_goals grind [PullPhase.isTaking_settle, PullPhase.settle_eq_returning,
          PendingNext.isOutstanding, PendingNext.isOver]
  · cases hstep

theorem Invariant.closeSettles {ok : Bool} (h : Invariant stringifyWire s)
    (hstep : s.closeSettles ok = some t) : Invariant stringifyWire t := by
  obtain ⟨hopen, hcalls, hraces, hdelivered, hfinal, hclosed, hover, howned, hreturning,
    hcancelled, hjoining, hjoined⟩ := h
  unfold DirectSse.closeSettles at hstep
  split at hstep
  · cases hstep
    constructor <;> grind [SessionClose.isClosed]
  · cases hstep

theorem Invariant.returnSettles {ok : Bool} (h : Invariant stringifyWire s)
    (hstep : s.returnSettles ok = some t) : Invariant stringifyWire t := by
  obtain ⟨hopen, hcalls, hraces, hdelivered, hfinal, hclosed, hover, howned, hreturning,
    hcancelled, hjoining, hjoined⟩ := h
  unfold DirectSse.returnSettles at hstep
  split at hstep
  · split_ifs at hstep
    cases hstep
    constructor <;> grind [PullPhase.Races, PullPhase.isTaking]
  · cases hstep

theorem Invariant.reportSettles {ok : Bool} (h : Invariant stringifyWire s)
    (hstep : s.reportSettles ok = some t) : Invariant stringifyWire t := by
  obtain ⟨hopen, hcalls, hraces, hdelivered, hfinal, hclosed, hover, howned, hreturning,
    hcancelled, hjoining, hjoined⟩ := h
  unfold DirectSse.reportSettles at hstep
  split at hstep
  · cases hstep
    constructor <;> grind [PullPhase.Races, PullPhase.isTaking]
  · cases hstep

/-! ### Steps of the consumer -/

theorem Invariant.read (h : Invariant stringifyWire s) (hstep : s.read = some t) :
    Invariant stringifyWire t := by
  obtain ⟨hopen, hcalls, hraces, hdelivered, hfinal, hclosed, hover, howned, hreturning,
    hcancelled, hjoining, hjoined⟩ := h
  unfold DirectSse.read at hstep
  split at hstep
  · cases hstep
    constructor <;> grind
  · cases hstep

/-- A history ends with an entry that is no frame. -/
theorem pairwise_concat {log : List (DeliveryEntry δ ν)} {entry : DeliveryEntry δ ν}
    (h : log.Pairwise fun earlier later => earlier.isFinal = true → later.isFrame = false)
    (hentry : entry.isFrame = true → ∀ earlier ∈ log, earlier.isFinal = false) :
    (log ++ [entry]).Pairwise fun earlier later =>
      earlier.isFinal = true → later.isFrame = false := by
  refine List.pairwise_append.2 ⟨h, List.pairwise_singleton _ _, ?_⟩
  intro earlier hearlier later hlater hfinal
  obtain rfl := List.mem_singleton.1 hlater
  by_contra hframe
  have hnone := hentry (by simpa using hframe) earlier hearlier
  rw [hfinal] at hnone
  cases hnone

theorem Invariant.beginCancel (h : Invariant stringifyWire s)
    (hstep : s.beginCancel = some t) : Invariant stringifyWire t := by
  obtain ⟨hopen, hcalls, hraces, ⟨rest, hrest, hgiven⟩, hfinal, hclosed, hover, howned, hreturning,
    hcancelled, hjoining, hjoined⟩ := h
  unfold DirectSse.beginCancel at hstep
  split_ifs at hstep
  cases hstep
  constructor
  case delivered =>
    refine ⟨rest, ?_, nofun⟩
    rw [List.filterMap_append]
    exact hrest.trans (by rw [List.filterMap_cons_none rfl, List.filterMap_nil, List.append_nil])
  case final => exact pairwise_concat hfinal nofun
  all_goals grind [closeSession, SessionClose.isClosed]

theorem Invariant.cancelReturns {ok : Bool} (h : Invariant stringifyWire s)
    (hstep : s.cancelReturns ok = some t) : Invariant stringifyWire t := by
  obtain ⟨hopen, hcalls, hraces, hdelivered, hfinal, hclosed, hover, howned, hreturning,
    hcancelled, hjoining, hjoined⟩ := h
  unfold DirectSse.cancelReturns at hstep
  split at hstep
  · split_ifs at hstep
    cases hstep
    constructor <;> grind
  · cases hstep

theorem Invariant.cancelResumes (h : Invariant stringifyWire s)
    (hstep : s.cancelResumes = some t) : Invariant stringifyWire t := by
  obtain ⟨hopen, hcalls, hraces, hdelivered, hfinal, hclosed, hover, howned, hreturning,
    hcancelled, hjoining, hjoined⟩ := h
  unfold DirectSse.cancelResumes at hstep
  split at hstep
  · split at hstep
    · cases hstep
      constructor <;> grind [SessionClose.isClosed]
    · cases hstep
  · cases hstep
    constructor <;> grind [SessionClose.isClosed]
  · cases hstep

/-! ### Steps of a shutdown -/

theorem Invariant.release (h : Invariant stringifyWire s) : Invariant stringifyWire s.release := by
  obtain ⟨hopen, hcalls, hraces, ⟨rest, hrest, hgiven⟩, hfinal, hclosed, hover, howned, hreturning,
    hcancelled, hjoining, hjoined⟩ := h
  unfold DirectSse.release
  dsimp only
  split_ifs
  all_goals
    constructor
    case delivered =>
      refine ⟨rest, ?_, nofun⟩
      dsimp only [closeController]
      rw [List.filterMap_append, List.filterMap_cons_none rfl, List.filterMap_nil, List.append_nil]
      exact hrest
    case final => exact pairwise_concat hfinal nofun
    all_goals grind [closeController]

theorem Invariant.beginJoin (h : Invariant stringifyWire s) (hstep : s.beginJoin = some t) :
    Invariant stringifyWire t := by
  obtain ⟨hopen, hcalls, hraces, hdelivered, hfinal, hclosed, hover, howned, hreturning,
    hcancelled, hjoining, hjoined⟩ := h
  unfold DirectSse.beginJoin at hstep
  split at hstep
  · split_ifs at hstep
    cases hstep
    constructor <;> grind
  · cases hstep

theorem Invariant.joinReturns {ok : Bool} (h : Invariant stringifyWire s)
    (hstep : s.joinReturns ok = some t) : Invariant stringifyWire t := by
  obtain ⟨hopen, hcalls, hraces, hdelivered, hfinal, hclosed, hover, howned, hreturning,
    hcancelled, hjoining, hjoined⟩ := h
  unfold DirectSse.joinReturns at hstep
  split at hstep
  · split_ifs at hstep
    cases hstep
    constructor <;> grind
  · cases hstep

theorem Invariant.joinResumes (h : Invariant stringifyWire s) (hstep : s.joinResumes = some t) :
    Invariant stringifyWire t := by
  obtain ⟨hopen, hcalls, hraces, hdelivered, hfinal, hclosed, hover, howned, hreturning,
    hcancelled, hjoining, hjoined⟩ := h
  unfold DirectSse.joinResumes at hstep
  split at hstep
  · cases hstep
    constructor <;> grind [closeSession, SessionClose.isClosed]
  · cases hstep
    constructor <;> grind
  · split at hstep
    · cases hstep
      constructor <;> grind [SessionClose.isClosed]
    · cases hstep
  · cases hstep

/-! ### Steps of a pull -/

theorem Invariant.timeout (h : Invariant stringifyWire s) (hstep : s.timeout = some t) :
    Invariant stringifyWire t := by
  obtain ⟨hopen, hcalls, hraces, hdelivered, hfinal, hclosed, hover, howned, hreturning,
    hcancelled, hjoining, hjoined⟩ := h
  unfold DirectSse.timeout at hstep
  split at hstep
  · cases hstep
    constructor <;> grind [PullPhase.Races, PullPhase.isTaking]
  · cases hstep

theorem Invariant.beginPull (h : Invariant stringifyWire s) (hstep : s.beginPull = some t) :
    Invariant stringifyWire t := by
  obtain ⟨hopen, hcalls, hraces, hdelivered, hfinal, hclosed, hover, howned, hreturning,
    hcancelled, hjoining, hjoined⟩ := h
  unfold DirectSse.beginPull at hstep
  split at hstep
  · split_ifs at hstep
    · cases hstep
      constructor <;> assumption
    · split at hstep <;> cases hstep <;> constructor <;>
        grind [PullPhase.Races, PullPhase.isTaking, PendingNext.isOutstanding, PendingNext.given,
          PendingNext.isOver]
  · cases hstep

/-- What a pull that fails needs: the promise may be forgotten before. -/
theorem Invariant.fail (h : Invariant stringifyWire s) (pending : PendingNext δ ν)
    (hpending : pending = s.pending ∨ pending = .none ∧ s.pending ≠ .outstanding)
    (failure : DeliveryFailure) :
    Invariant stringifyWire ({ s with pending := pending }.fail failure) := by
  obtain ⟨hopen, hcalls, hraces, ⟨rest, hrest, hgiven⟩, hfinal, hclosed, hover, howned, hreturning,
    hcancelled, hjoining, hjoined⟩ := h
  unfold DirectSse.fail errorController
  split_ifs
  all_goals
    constructor
    case delivered => exact ⟨rest, hrest, nofun⟩
    all_goals grind [PullPhase.Races, PullPhase.isTaking, PendingNext.isOutstanding,
      PendingNext.isOver]

theorem isOpen_eq_true (hstream : s.stream = .readable) (hclose : s.closeRequested = false) :
    s.isOpen = true := by
  rw [DirectSse.isOpen, hstream, hclose]
  rfl

/-- A pull that goes on after the stream was given up does nothing. -/
theorem Invariant.idle (h : Invariant stringifyWire s) (hclosed : s.closed = true)
    (htaking : s.pull.isTaking = true) : Invariant stringifyWire { s with pull := .idle } := by
  obtain ⟨hopen, hcalls, hraces, ⟨rest, hrest, hgiven⟩, hfinal, hclosed, hover, howned, hreturning,
    hcancelled, hjoining, hjoined⟩ := h
  constructor
  case delivered => exact ⟨rest, hrest, hgiven⟩
  all_goals grind [PullPhase.Races, PullPhase.isTaking]

theorem Invariant.writeKeepalive (h : Invariant stringifyWire s) (hclosed : s.closed = false) :
    Invariant stringifyWire s.writeKeepalive := by
  obtain ⟨hopen, hcalls, hraces, ⟨rest, hrest, hgiven⟩, hfinal, hentries, hover, howned, hreturning,
    hcancelled, hjoining, hjoined⟩ := h
  obtain ⟨hstream, hclose, htaking⟩ := hopen hclosed
  unfold DirectSse.writeKeepalive
  rw [if_pos (isOpen_eq_true hstream hclose)]
  unfold enqueue
  constructor
  case delivered =>
    refine ⟨rest, ?_, hgiven⟩
    dsimp only
    rw [List.filterMap_append, List.filterMap_cons_none rfl, List.filterMap_nil, List.append_nil]
    exact hrest
  case final =>
    refine pairwise_concat hfinal fun _ earlier hearlier => ?_
    grind
  all_goals grind [PullPhase.Races, PullPhase.isTaking, DeliveryEntry.isFinal]

theorem Invariant.deliver {result : QueryResult δ ν} (h : Invariant stringifyWire s)
    (hclosed : s.closed = false) (hpending : s.pending = .settled (.value result)) :
    Invariant stringifyWire ({ s with pending := .none }.deliver stringifyWire result) := by
  have hfail := h.fail .none (.inr ⟨rfl, by rw [hpending]; nofun⟩) .serialization
  obtain ⟨hopen, hcalls, hraces, ⟨rest, hrest, hgiven⟩, hfinal, hentries, hover, howned, hreturning,
    hcancelled, hjoining, hjoined⟩ := h
  obtain ⟨hstream, hclose, htaking⟩ := hopen hclosed
  unfold DirectSse.deliver
  cases hjson : stringifyWire result with
  | none => exact hfail
  | some json =>
      have hframed : framed stringifyWire result = (result, some (dataFrame json)) := by
        rw [framed, hjson]
        rfl
      have hdelivered : s.results.map (framed stringifyWire) = (s.log ++
          [DeliveryEntry.data result (dataFrame json)]).filterMap DeliveryEntry.delivered ++ [] := by
        rw [hrest, hgiven hclosed, hpending, List.append_nil, List.filterMap_append]
        exact congrArg _ (congrArg (fun pair => [pair]) hframed)
      have hnone : ∀ earlier ∈ s.log, earlier.isFinal = false := by grind
      have hlog := pairwise_concat hfinal fun (_ : (DeliveryEntry.data result
        (dataFrame json)).isFrame = true) => hnone
      have hopened : ({ s with pending := .none } : DirectSse δ ν).isOpen = true :=
        isOpen_eq_true hstream hclose
      dsimp only
      rw [if_pos hopened]
      unfold enqueue closeSession
      split_ifs
      all_goals
        constructor
        case delivered => exact ⟨[], hdelivered, fun _ => rfl⟩
        case final => exact hlog
        all_goals grind [PullPhase.Races, PullPhase.isTaking, DeliveryEntry.isFinal,
          PendingNext.isOutstanding, PendingNext.isOver, SessionClose.isClosed]

/-- A stream is closed when the iteration is over or the session is closed. -/
theorem Invariant.finish (h : Invariant stringifyWire s) (pending : PendingNext δ ν)
    (hpending : pending = s.pending ∨ pending = .none ∧ s.pending ≠ .outstanding)
    (hended : s.iteratorFinished = true ∨ s.session.isClosed = true) :
    Invariant stringifyWire ({ s with pending := pending, closed := true }.finish) := by
  have hfail := h.fail pending hpending .controller
  have hsame : ({ s with pending := pending, closed := true } : DirectSse δ ν).fail .controller =
      ({ s with pending := pending } : DirectSse δ ν).fail .controller := by
    unfold DirectSse.fail errorController
    dsimp only
    split_ifs <;> rfl
  obtain ⟨hopen, hcalls, hraces, ⟨rest, hrest, hgiven⟩, hfinal, hclosed, hover, howned, hreturning,
    hcancelled, hjoining, hjoined⟩ := h
  unfold DirectSse.finish
  split_ifs
  · unfold closeController
    constructor
    case delivered => exact ⟨rest, hrest, nofun⟩
    all_goals grind [PullPhase.Races, PullPhase.isTaking, PendingNext.isOutstanding,
      PendingNext.isOver]
  · rwa [hsame]

theorem Invariant.raced {winner : PullRace δ ν} (h : Invariant stringifyWire s)
    (hpull : s.pull = .racing (some winner)) :
    Invariant stringifyWire (s.raced stringifyWire winner) := by
  have htaking : s.pull.isTaking = true := by rw [hpull]; rfl
  have hraces := h.races
  rw [hpull] at hraces
  rcases winner with _ | ⟨result | _ | _⟩
  · unfold DirectSse.raced
    split_ifs with hclosed
    · exact h.idle hclosed htaking
    · exact h.writeKeepalive (by simpa using hclosed)
  · unfold DirectSse.raced
    split_ifs with hclosed
    · exact h.idle hclosed htaking
    · exact h.deliver (by simpa using hclosed) hraces
  · unfold DirectSse.raced
    split_ifs with hclosed
    · exact h.idle hclosed htaking
    · have hpending : s.pending = .settled .done := hraces
      exact h.finish .none (.inr ⟨rfl, by rw [hpending]; nofun⟩)
        (.inl (h.completed (by rw [hpending]; rfl)))
  · exact h.fail _ (.inl rfl) .iteration

theorem Invariant.resume (h : Invariant stringifyWire s)
    (hstep : s.resume stringifyWire = some t) : Invariant stringifyWire t := by
  unfold DirectSse.resume at hstep
  split at hstep
  · rename_i hpull
    cases hstep
    exact h.raced hpull
  · rename_i hpull
    split at hstep
    · rename_i hsession
      cases hstep
      obtain ⟨hopen, hcalls, hraces, hdelivered, hfinal, hclosed, hover, howned, hreturning,
        hcancelled, hjoining, hjoined⟩ := h
      constructor <;> grind [PullPhase.Races, PullPhase.isTaking, SessionClose.isClosed]
    · cases hstep
      exact h.fail _ (.inl rfl) .close
    · cases hstep
  · rename_i ok hpull
    cases hstep
    have hsession := h.returning _ hpull
    split_ifs
    · have hclosed : s.closed = true := by
        by_contra hopened
        have htaking := (h.isOpen (by simpa using hopened)).2.2
        rw [hpull] at htaking
        cases htaking
      have hsame : { s with pending := s.pending, closed := true } = s := by
        rw [← hclosed]
      have hfinish := h.finish _ (.inl rfl) (.inr hsession)
      rwa [hsame] at hfinish
    · exact h.fail _ (.inl rfl) .iteration
  · rename_i hpull
    cases hstep
    obtain ⟨hopen, hcalls, hraces, hdelivered, hfinal, hclosed, hover, howned, hreturning,
      hcancelled, hjoining, hjoined⟩ := h
    unfold closeSession
    constructor <;> grind [PullPhase.Races, PullPhase.isTaking, SessionClose.isClosed]
  · rename_i hpull
    split at hstep
    · rename_i hsession
      cases hstep
      obtain ⟨hopen, hcalls, hraces, hdelivered, hfinal, hclosed, hover, howned, hreturning,
        hcancelled, hjoining, hjoined⟩ := h
      constructor <;> grind [PullPhase.Races, PullPhase.isTaking, SessionClose.isClosed]
    · cases hstep
  · cases hstep

theorem invariant_step {event : DeliveryEvent δ ν} (h : Invariant stringifyWire s)
    (hstep : s.step stringifyWire event = some t) : Invariant stringifyWire t := by
  cases event with
  | pull => exact h.beginPull hstep
  | next outcome => exact h.settleNext hstep
  | timeout => exact h.timeout hstep
  | resume => exact h.resume hstep
  | closeSettles ok => exact h.closeSettles hstep
  | returnSettles ok => exact h.returnSettles hstep
  | reportSettles ok => exact h.reportSettles hstep
  | read => exact h.read hstep
  | cancel => exact h.beginCancel hstep
  | cancelReturns ok => exact h.cancelReturns hstep
  | cancelResumes => exact h.cancelResumes hstep
  | release =>
      cases hstep
      exact h.release
  | joinWork => exact h.beginJoin hstep
  | joinReturns ok => exact h.joinReturns hstep
  | joinResumes => exact h.joinResumes hstep

/-! ### Failures that are reported -/

/-- The stream is not cancelled or released while a pull closes the session. -/
def Undisturbed (s : DirectSse δ ν) : DeliveryEvent δ ν → Prop
  | .cancel => s.pull.isEnding = false
  | .release => s.pull.isEnding = false
  | _ => True

/-- A pull that closes the session finds the stream as it left it. -/
def Reports (s : DirectSse δ ν) : Prop :=
  (s.pull.isEnding = true → s.stream = .readable ∧ s.closeRequested = false) ∧
    .controller ∉ s.reported

theorem reports_fail {failure : DeliveryFailure} (h : .controller ∉ s.reported)
    (hfailure : failure ≠ .controller) : Reports (s.fail failure) := by
  refine ⟨nofun, fun hmem => ?_⟩
  have hreported : (s.fail failure).reported = s.reported ++ [failure] := rfl
  rw [hreported] at hmem
  rcases List.mem_append.1 hmem with hmem | hmem
  · exact h hmem
  · exact hfailure (List.mem_singleton.1 hmem).symm

theorem reports_finish (h : .controller ∉ s.reported) (hopened : s.isOpen = true) :
    Reports s.finish := by
  unfold DirectSse.finish
  rw [if_pos hopened]
  exact ⟨nofun, h⟩

theorem reports_deliver (result : QueryResult δ ν) (h : .controller ∉ s.reported)
    (hstream : s.stream = .readable) (hclose : s.closeRequested = false) :
    Reports (s.deliver stringifyWire result) := by
  unfold DirectSse.deliver
  cases stringifyWire result with
  | none => exact reports_fail h nofun
  | some json =>
      dsimp only
      rw [if_pos (isOpen_eq_true hstream hclose)]
      split_ifs
      · exact ⟨fun _ => ⟨hstream, hclose⟩, h⟩
      · exact ⟨nofun, h⟩

/-- A pull that goes on finds the controller open unless the stream was given up. -/
theorem reports_raced {winner : PullRace δ ν} (h : Invariant stringifyWire s)
    (hpull : s.pull = .racing (some winner)) (hs : Reports s) :
    Reports (s.raced stringifyWire winner) := by
  obtain ⟨-, hreported⟩ := hs
  have hopened : ¬ s.closed = true → s.stream = .readable ∧ s.closeRequested = false := by
    intro hclosed
    obtain ⟨hstream, hclose, -⟩ := h.isOpen (by simpa using hclosed)
    exact ⟨hstream, hclose⟩
  rcases winner with _ | ⟨result | _ | _⟩
  · unfold DirectSse.raced
    split_ifs with hclosed
    · exact ⟨nofun, hreported⟩
    · obtain ⟨hstream, hclose⟩ := hopened hclosed
      unfold DirectSse.writeKeepalive
      rw [if_pos (isOpen_eq_true hstream hclose)]
      exact ⟨nofun, hreported⟩
  · unfold DirectSse.raced
    split_ifs with hclosed
    · exact ⟨nofun, hreported⟩
    · obtain ⟨hstream, hclose⟩ := hopened hclosed
      exact reports_deliver result hreported hstream hclose
  · unfold DirectSse.raced
    split_ifs with hclosed
    · exact ⟨nofun, hreported⟩
    · obtain ⟨hstream, hclose⟩ := hopened hclosed
      exact reports_finish hreported (isOpen_eq_true hstream hclose)
  · exact reports_fail hreported nofun

theorem reports_resume (h : Invariant stringifyWire s) (hs : Reports s)
    (hstep : s.resume stringifyWire = some t) : Reports t := by
  have hending := hs.1
  have hreported := hs.2
  unfold DirectSse.resume at hstep
  split at hstep
  · rename_i hpull
    cases hstep
    exact reports_raced h hpull hs
  · rename_i hpull
    split at hstep
    · cases hstep
      exact ⟨fun _ => hending (by rw [hpull]; rfl), hreported⟩
    · cases hstep
      exact reports_fail hreported nofun
    · cases hstep
  · rename_i hpull
    cases hstep
    obtain ⟨hstream, hclose⟩ := hending (by rw [hpull]; rfl)
    split_ifs
    · exact reports_finish hreported (isOpen_eq_true hstream hclose)
    · exact reports_fail hreported nofun
  · cases hstep
    exact ⟨nofun, hreported⟩
  · split at hstep
    · cases hstep
      exact ⟨nofun, hreported⟩
    · cases hstep
  · cases hstep

/-- A step that leaves the controller and its failures alone, and no pull in a later phase. -/
theorem reports_of_kept (hs : Reports s) (hstream : t.stream = s.stream)
    (hclose : t.closeRequested = s.closeRequested) (hreported : t.reported = s.reported)
    (hpull : t.pull.isEnding = true → s.pull.isEnding = true) : Reports t := by
  refine ⟨fun hending => ?_, by rw [hreported]; exact hs.2⟩
  rw [hstream, hclose]
  exact hs.1 (hpull hending)

theorem reports_step {event : DeliveryEvent δ ν} (h : Invariant stringifyWire s) (hs : Reports s)
    (hcalm : Undisturbed s event) (hstep : s.step stringifyWire event = some t) : Reports t := by
  cases event with
  | resume => exact reports_resume h hs hstep
  | read =>
      change s.read = some t at hstep
      unfold DirectSse.read at hstep
      split at hstep
      · cases hstep
        refine ⟨fun hpull => ?_, hs.2⟩
        obtain ⟨-, hclose⟩ := hs.1 hpull
        exact ⟨by simp [hclose], hclose⟩
      · cases hstep
  | cancel =>
      change s.beginCancel = some t at hstep
      unfold DirectSse.beginCancel at hstep
      split_ifs at hstep
      cases hstep
      have hpull : s.pull.isEnding = false := hcalm
      refine ⟨fun hending => ?_, hs.2⟩
      have hboth := hending.symm.trans hpull
      cases hboth
  | release =>
      cases hstep
      have hpull : s.pull.isEnding = false := hcalm
      have hkept : s.release.pull = s.pull ∧ s.release.reported = s.reported := by
        unfold DirectSse.release
        dsimp only
        split_ifs <;> exact ⟨rfl, rfl⟩
      refine ⟨fun hending => ?_, by rw [hkept.2]; exact hs.2⟩
      rw [hkept.1, hpull] at hending
      cases hending
  | next outcome =>
      change s.settleNext outcome = some t at hstep
      unfold DirectSse.settleNext at hstep
      have hsettle : (s.pull.settle outcome).isEnding = true → s.pull.isEnding = true := by
        rcases s.pull with _ | (_ | _) | _ | _ | _ | _ <;> exact id
      split at hstep
      · cases outcome with
        | value result =>
            dsimp only at hstep
            split_ifs at hstep
            cases hstep
            exact reports_of_kept hs rfl rfl rfl hsettle
        | done =>
            cases hstep
            exact reports_of_kept hs rfl rfl rfl hsettle
        | throws =>
            cases hstep
            exact reports_of_kept hs rfl rfl rfl hsettle
      · cases hstep
  | pull =>
      change s.beginPull = some t at hstep
      unfold DirectSse.beginPull at hstep
      split at hstep
      · split_ifs at hstep
        · cases hstep
          exact hs
        · split at hstep <;> cases hstep <;>
            exact reports_of_kept hs rfl rfl rfl fun hending => by cases hending
      · cases hstep
  | returnSettles ok =>
      change s.returnSettles ok = some t at hstep
      unfold DirectSse.returnSettles at hstep
      split at hstep
      · rename_i hpull
        split_ifs at hstep
        cases hstep
        exact reports_of_kept hs rfl rfl rfl fun _ => by rw [hpull]; rfl
      · cases hstep
  | timeout =>
      change s.timeout = some t at hstep
      unfold DirectSse.timeout at hstep
      split at hstep <;> cases hstep
      exact reports_of_kept hs rfl rfl rfl fun hending => by cases hending
  | reportSettles ok =>
      change s.reportSettles ok = some t at hstep
      unfold DirectSse.reportSettles at hstep
      split at hstep <;> cases hstep
      exact reports_of_kept hs rfl rfl rfl fun hending => by cases hending
  | closeSettles ok =>
      change s.closeSettles ok = some t at hstep
      unfold DirectSse.closeSettles at hstep
      split at hstep <;> cases hstep
      exact reports_of_kept hs rfl rfl rfl id
  | cancelReturns ok =>
      change s.cancelReturns ok = some t at hstep
      unfold DirectSse.cancelReturns at hstep
      split at hstep
      · split_ifs at hstep
        cases hstep
        exact reports_of_kept hs rfl rfl rfl id
      · cases hstep
  | cancelResumes =>
      change s.cancelResumes = some t at hstep
      unfold DirectSse.cancelResumes at hstep
      split at hstep
      · split at hstep <;> cases hstep
        exact reports_of_kept hs rfl rfl rfl id
      · cases hstep
        exact reports_of_kept hs rfl rfl rfl id
      · cases hstep
  | joinWork =>
      change s.beginJoin = some t at hstep
      unfold DirectSse.beginJoin at hstep
      split at hstep
      · split_ifs at hstep
        cases hstep
        exact reports_of_kept hs rfl rfl rfl id
      · cases hstep
  | joinReturns ok =>
      change s.joinReturns ok = some t at hstep
      unfold DirectSse.joinReturns at hstep
      split at hstep
      · split_ifs at hstep
        cases hstep
        exact reports_of_kept hs rfl rfl rfl id
      · cases hstep
  | joinResumes =>
      change s.joinResumes = some t at hstep
      unfold DirectSse.joinResumes at hstep
      split at hstep
      · cases hstep
        exact reports_of_kept hs rfl rfl rfl id
      · cases hstep
        exact reports_of_kept hs rfl rfl rfl id
      · split at hstep <;> cases hstep
        exact reports_of_kept hs rfl rfl rfl id
      · cases hstep

/-! ### Runs -/

theorem Invariant.delivers (h : Invariant stringifyWire s) : Delivers stringifyWire s where
  outstanding := by
    have hcalls := h.calls
    have hone := Bool.toNat_le s.pending.isOutstanding
    omega
  delivered := by
    obtain ⟨rest, hrest, -⟩ := h.delivered
    exact ⟨rest, hrest.symm⟩
  final := h.final
  closes hended hsettled hjoined := by
    obtain ⟨hpull, hcancel⟩ := hsettled
    have hclosed : s.closed = true := by
      by_contra hopened
      exact hended (h.isOpen (by simpa using hopened)).1
    have htaking : s.pull.isTaking = true := by
      cases hphase : s.pull <;> simp_all [PullPhase.isTaking]
    rcases h.owned hclosed with hreleased | hcancelled | hfinished | hsession | hpull
    · exact h.joined (hjoined hreleased)
    · have hsettled := hcancel.resolve_left hcancelled
      rcases h.cancelled with hnone | hclosing | hsession
      · exact absurd hnone hcancelled
      · rw [hsettled] at hclosing
        cases hclosing
      · exact .inl hsession
    · exact .inr hfinished
    · exact .inl hsession
    · rw [htaking] at hpull
      cases hpull

/-- What a delivery does in any order of events. -/
theorem delivery_law {events : List (DeliveryEvent δ ν)}
    (hrun : (machine stringifyWire).exec {} events = some s) :
    Delivers stringifyWire s ∧
      ((machine stringifyWire).Within Undisturbed {} events → .controller ∉ s.reported) := by
  have hinv : Invariant stringifyWire s :=
    (machine stringifyWire).exec_preserves (C := fun _ _ => True)
      (fun _ _ _ h _ hstep => invariant_step h hstep) invariant_init
      ((machine stringifyWire).within_true _ _) hrun
  refine ⟨hinv.delivers, fun hcalm => ?_⟩
  have hboth : Invariant stringifyWire s ∧ Reports s :=
    (machine stringifyWire).exec_preserves (P := fun s => Invariant stringifyWire s ∧ Reports s)
      (fun _ _ _ h hcalm hstep => ⟨invariant_step h.1 hstep, reports_step h.1 h.2 hcalm hstep⟩)
      ⟨invariant_init, nofun, List.not_mem_nil⟩ hcalm hrun
  exact hboth.2.2

/-! ### Three runs -/

/-- A result that may be followed by others. -/
def readyResult : QueryResult Unit Unit := Queries.queryResult "correlation" { data := some () }

/-- A result that is the last. -/
def deniedResult : QueryResult Unit Unit :=
  Queries.queryResult "correlation" { isAuthorized := false }

def wireText (_ : QueryResult Unit Unit) : Option String := some "\x7b\x7d"

/-- A result between keep-alives, and the end of the iteration. -/
theorem delivery_law_keepalive :
    ∃ s, (machine wireText).exec {} [.pull, .timeout, .resume, .read, .pull,
        .next (.value readyResult), .resume, .read, .pull, .next .done, .resume] = some s ∧
      s.stream = .closed ∧ Delivers wireText s ∧ .controller ∉ s.reported := by
  refine ⟨_, rfl, rfl, ?_⟩
  have hrun : (machine wireText).exec {} [.pull, .timeout, .resume, .read, .pull,
      .next (.value readyResult), .resume, .read, .pull, .next .done, .resume] = some _ := rfl
  have h := delivery_law hrun
  exact ⟨h.1, h.2 ((machine wireText).within_of_forall (by simp [Undisturbed]) _)⟩

/-- A stream that a shutdown has released ends before its session is closed; and a consumer that
cancels while the session is closed after a last result has the controller's error reported. -/
theorem not_delivery_law :
    (∃ s, (machine wireText).exec {} [.pull, .next (.value readyResult), .resume, .release,
        .read] = some s ∧ s.stream ≠ .readable ∧ s.Settled ∧ s.session.isClosed = false ∧
          s.iteratorFinished = false) ∧
      ∃ s, (machine wireText).exec {} [.pull, .next (.value deniedResult), .resume, .cancel,
        .closeSettles true, .resume, .returnSettles true, .resume] = some s ∧
          s.reported = [.controller] :=
  ⟨⟨_, rfl, nofun, ⟨rfl, .inl rfl⟩, rfl, rfl⟩, _, rfl, rfl⟩

end DirectSse

end Arc.Observable
