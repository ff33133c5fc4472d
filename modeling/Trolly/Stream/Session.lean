import Trolly.Lib.PartialRun
import Trolly.Stream.Multiplexor

/-! One run of `MonitorMultiplexor::stream`: the subscriptions are sent, the handlers are built,
and the loop reads the socket until it sees the shutdown flag. The flag may be set at any time;
the loop looks at it only between two items. -/
namespace Trolly.Stream

open PartialRun

inductive Outgoing where
  | text (payload : String)
  | close
  deriving DecidableEq

/-- What `stream` awaits: its handlers, the next item of the socket, or nothing any more. -/
inductive Awaits where
  | handlers
  | next
  | nothing
  deriving DecidableEq

/-- What happens to a run: the build tasks are joined, the socket yields an item or its end, and
Ctrl+C sets the flag. -/
inductive Signal (E : Type) where
  | built
  | item (res : Option (Except E Message))
  | interrupt

structure Session (H Ctx : Type) where
  sent : List Outgoing
  shutdown : Bool
  hub : Option (MonitorMultiplexor H Ctx)
  awaits : Awaits

namespace Session

variable {H Ctx Update Error E : Type}

/-- After `subscribe`. -/
def start (wsSubscriptions : List String) : Session H Ctx where
  sent := wsSubscriptions.map .text
  shutdown := false
  hub := none
  awaits := .handlers

def disconnect (self : Session H Ctx) : Session H Ctx :=
  { self with sent := self.sent ++ [.close], awaits := .nothing }

/-- The condition of the loop. -/
def check (self : Session H Ctx) : Session H Ctx :=
  if self.shutdown then self.disconnect else { self with awaits := .next }

def ingest (handler : EventHandler H Ctx Update Error) (self : Session H Ctx)
    (res : Except E Message) : Session H Ctx :=
  match res with
  | .ok msg => { self with hub := self.hub.map (·.ingestMessage handler msg) }
  | .error _ => self

/-- `built` is what the build tasks make. A signal that is not awaited does not happen. -/
def step (handler : EventHandler H Ctx Update Error) (built : MonitorMultiplexor H Ctx)
    (self : Session H Ctx) : Signal E → Option (Session H Ctx)
  | .built => if self.awaits = .handlers then some { self with hub := some built }.check else none
  | .item (some res) => if self.awaits = .next then some (self.ingest handler res).check else none
  | .item none => if self.awaits = .next then some self.disconnect else none
  | .interrupt => some { self with shutdown := true }

end Session

/-! What a run received. -/

section Received

variable {E : Type}

def Signal.item? : Signal E → Option (Option (Except E Message))
  | .item res => some res
  | .built | .interrupt => none

def items (signals : List (Signal E)) : List (Option (Except E Message)) :=
  signals.filterMap Signal.item?

/-- The messages that were read, with the errors left out. -/
def messages (signals : List (Signal E)) : List Message :=
  (items signals).filterMap (fun item => item.bind Except.toOption)

/-- The socket has ended, or something was awaited after the flag was set. -/
def Over (signals : List (Signal E)) : Prop :=
  .item none ∈ signals ∨
    ∃ before after, signals = before ++ .interrupt :: after ∧ ∃ signal ∈ after, signal ≠ .interrupt

theorem items_snoc (signals : List (Signal E)) (signal : Signal E) :
    items (signals ++ [signal]) = items signals ++ signal.item?.toList := by
  rw [items, List.filterMap_append]
  cases signal <;> rfl

theorem messages_snoc (signals : List (Signal E)) (signal : Signal E) :
    messages (signals ++ [signal]) = messages signals ++
      signal.item?.toList.filterMap (fun item => item.bind Except.toOption) := by
  rw [messages, items_snoc, List.filterMap_append]
  rfl

theorem over_snoc (signals : List (Signal E)) (signal : Signal E) :
    Over (signals ++ [signal]) ↔
      Over signals ∨ signal = .item none ∨ signal ≠ .interrupt ∧ .interrupt ∈ signals := by
  constructor
  · rintro (ended | ⟨before, after, split, late, member, awaited⟩)
    · rcases List.mem_append.mp ended with earlier | last
      · exact .inl (.inl earlier)
      · exact .inr (.inl (List.mem_singleton.mp last).symm)
    · rcases List.eq_nil_or_concat after with rfl | ⟨rest, last, rfl⟩
      · cases member
      · rw [List.concat_eq_append] at split member
        rw [← List.cons_append, ← List.append_assoc] at split
        obtain ⟨front, own⟩ := List.append_inj' split rfl
        cases own
        rcases List.mem_append.mp member with inside | last
        · exact .inl (.inr ⟨before, rest, front, late, inside, awaited⟩)
        · obtain rfl := List.mem_singleton.mp last
          exact .inr (.inr ⟨awaited, by simp [front]⟩)
  · rintro ((ended | ⟨before, after, rfl, late, member, awaited⟩) | rfl | ⟨awaited, flagged⟩)
    · exact .inl (List.mem_append_left _ ended)
    · exact .inr ⟨before, after ++ [signal], by simp, late, List.mem_append_left _ member, awaited⟩
    · exact .inl (List.mem_append_right _ (.head _))
    · obtain ⟨before, after, rfl⟩ := List.append_of_mem flagged
      exact .inr ⟨before, after ++ [signal], by simp, signal,
        List.mem_append_right _ (.head _), awaited⟩

end Received

namespace Session

variable {H Ctx Update Error E : Type} (handler : EventHandler H Ctx Update Error)
  (built : MonitorMultiplexor H Ctx) (wsSubscriptions : List String)

/-- Where a session stands after its signals. -/
structure Follows (signals : List (Signal E)) (session : Session H Ctx) : Prop where
  sent : session.sent = wsSubscriptions.map .text ++
    if session.awaits = .nothing then [.close] else []
  flag : session.shutdown = true ↔ .interrupt ∈ signals
  waiting : session.awaits = .handlers ↔ .built ∉ signals
  ended : session.awaits = .nothing ↔ Over signals
  unbuilt : .built ∉ signals → session.hub = none ∧ items signals = []
  hub : .built ∈ signals → session.hub =
    some ((messages signals).foldl (MonitorMultiplexor.ingestMessage handler) built)

variable {handler built wsSubscriptions} {signals : List (Signal E)} {session : Session H Ctx}

theorem start_follows : Follows handler built wsSubscriptions ([] : List (Signal E))
    (start wsSubscriptions) where
  sent := by simp [start]
  flag := by simp [start]
  waiting := by simp [start]
  ended := by simp [start, Over]
  unbuilt := fun _ => ⟨rfl, rfl⟩
  hub := fun built => nomatch built

theorem step_some {next : Session H Ctx} {signal : Signal E}
    (stepped : session.step handler built signal = some next) :
    (signal = .built ∧ session.awaits = .handlers ∧
      next = { session with hub := some built }.check) ∨
    (∃ res, signal = .item (some res) ∧ session.awaits = .next ∧
      next = (session.ingest handler res).check) ∨
    (signal = .item none ∧ session.awaits = .next ∧ next = session.disconnect) ∨
    (signal = .interrupt ∧ next = { session with shutdown := true }) := by
  rcases signal with _ | (_ | res) | _
  · obtain ⟨awaits, made⟩ := Option.ite_none_right_eq_some.mp stepped
    cases made
    exact .inl ⟨rfl, awaits, rfl⟩
  · obtain ⟨awaits, made⟩ := Option.ite_none_right_eq_some.mp stepped
    cases made
    exact .inr (.inr (.inl ⟨rfl, awaits, rfl⟩))
  · obtain ⟨awaits, made⟩ := Option.ite_none_right_eq_some.mp stepped
    cases made
    exact .inr (.inl ⟨res, rfl, awaits, rfl⟩)
  · cases stepped
    exact .inr (.inr (.inr ⟨rfl, rfl⟩))

theorem check_spec (self : Session H Ctx) :
    self.check.shutdown = self.shutdown ∧ self.check.hub = self.hub ∧
      self.check.sent = self.sent ++ (if self.check.awaits = .nothing then [.close] else []) ∧
      (self.check.awaits = .nothing ↔ self.shutdown = true) ∧ self.check.awaits ≠ .handlers := by
  unfold check
  split <;> simp_all [disconnect]

/-- An awaited signal after which the loop looks at the flag. -/
theorem Follows.checked (follows : Follows handler built wsSubscriptions signals session)
    (open_ : session.awaits ≠ .nothing) {signal : Signal E} (awaited : signal ≠ .interrupt)
    (more : signal ≠ .item none) (ready : .built ∈ signals ++ [signal]) {self : Session H Ctx}
    (sent : self.sent = session.sent) (flag : self.shutdown = session.shutdown)
    (hub : self.hub = some ((messages (signals ++ [signal])).foldl
      (MonitorMultiplexor.ingestMessage handler) built)) :
    Follows handler built wsSubscriptions (signals ++ [signal]) self.check := by
  obtain ⟨sameFlag, sameHub, told, ends, loops⟩ := self.check_spec
  constructor
  case sent => rw [told, sent, follows.sent, if_neg open_, List.append_nil]
  case flag => simp [sameFlag, flag, follows.flag, awaited.symm]
  case waiting => exact iff_of_false loops (not_not_intro ready)
  case ended =>
    rw [ends, flag, over_snoc, follows.flag, ← follows.ended]
    simp [open_, awaited, more]
  case unbuilt => exact fun absent => absurd ready absent
  case hub => exact fun _ => sameHub.trans hub

/-- What a signal does to a session that stands where its signals lead. -/
theorem Follows.step (follows : Follows handler built wsSubscriptions signals session)
    {signal : Signal E} {next : Session H Ctx}
    (stepped : session.step handler built signal = some next) :
    Follows handler built wsSubscriptions (signals ++ [signal]) next := by
  have ready : session.awaits = .next → .built ∈ signals := by
    intro loops
    by_contra unbuilt
    rw [follows.waiting.mpr unbuilt] at loops
    cases loops
  rcases step_some stepped with ⟨rfl, awaits, rfl⟩ | ⟨res, rfl, awaits, rfl⟩ |
    ⟨rfl, awaits, rfl⟩ | ⟨rfl, rfl⟩
  · obtain ⟨_, nothing⟩ := follows.unbuilt (follows.waiting.mp awaits)
    refine follows.checked (by simp [awaits]) (by simp) (by simp) (by simp) rfl rfl ?_
    simp [messages, items_snoc, nothing, Signal.item?]
  · have hub := follows.hub (ready awaits)
    have listed := List.mem_append_left [Signal.item (some res)] (ready awaits)
    cases res with
    | ok msg =>
      refine follows.checked (by simp [awaits]) (by simp) (by simp) listed rfl rfl ?_
      simp [ingest, hub, messages_snoc, Signal.item?, Except.toOption]
    | error e =>
      refine follows.checked (by simp [awaits]) (by simp) (by simp) listed rfl rfl ?_
      rw [messages_snoc]
      have same : messages signals ++ [] = messages signals := List.append_nil _
      exact hub.trans (congrArg (fun read => some (List.foldl _ built read)) same.symm)
  · have listed := List.mem_append_left [Signal.item none] (ready awaits)
    constructor
    case sent => simp [disconnect, follows.sent, awaits]
    case flag => simp [disconnect, follows.flag]
    case waiting => exact iff_of_false (by simp [disconnect]) (not_not_intro listed)
    case ended => exact iff_of_true rfl ((over_snoc signals _).mpr (.inr (.inl rfl)))
    case unbuilt => exact fun absent => absurd listed absent
    case hub =>
      intro _
      simpa [disconnect, messages_snoc, Signal.item?] using follows.hub (ready awaits)
  · constructor
    case sent => exact follows.sent
    case flag => simp
    case waiting => simpa using follows.waiting
    case ended => simpa [over_snoc] using follows.ended
    case unbuilt =>
      intro absent
      obtain ⟨none, nothing⟩ := follows.unbuilt (by simpa using absent)
      exact ⟨none, by rw [items_snoc, nothing]; rfl⟩
    case hub =>
      intro ready
      simpa [messages_snoc, Signal.item?] using follows.hub (by simpa using ready)

theorem run_follows (ran : run (Session.step handler built) (start wsSubscriptions) signals =
    some session) : Follows handler built wsSubscriptions signals session :=
  run_invariant (Follows handler built wsSubscriptions) start_follows
    (fun _ _ _ _ follows stepped => follows.step stepped) ran

/-- Once the flag is set, the item that is awaited is the last. -/
theorem items_late (flagged : session.shutdown = true) {last : Session H Ctx}
    (ran : run (Session.step handler built) session signals = some last) :
    (items signals).length ≤ if session.awaits = .next then 1 else 0 := by
  induction signals generalizing session with
  | nil => exact Nat.zero_le _
  | cons signal rest ih =>
    obtain ⟨next, stepped, later⟩ := Option.bind_eq_some_iff.mp ran
    have tail : next.shutdown = true → (items rest).length ≤ if next.awaits = .next then 1 else 0 :=
      fun flagged => ih flagged later
    have stops : ∀ self : Session H Ctx, self.shutdown = true → self.check.awaits ≠ .next := by
      intro self flagged
      simp [check, flagged, disconnect]
    rcases step_some stepped with ⟨rfl, awaits, rfl⟩ | ⟨res, rfl, awaits, rfl⟩ |
      ⟨rfl, awaits, rfl⟩ | ⟨rfl, rfl⟩
    · have none := tail ((check_spec _).1.trans flagged)
      rw [if_neg (by exact stops _ flagged)] at none
      exact none.trans (Nat.zero_le _)
    · have kept : (session.ingest handler res).shutdown = true := by
        cases res <;> exact flagged
      have none := tail ((check_spec _).1.trans kept)
      rw [if_neg (stops _ kept)] at none
      rw [if_pos awaits]
      exact Nat.succ_le_succ none
    · have none := tail flagged
      rw [if_neg (by simp [disconnect])] at none
      rw [if_pos awaits]
      exact Nat.succ_le_succ none
    · exact tail rfl

theorem run_append {start last : Session H Ctx} (before after : List (Signal E)) :
    run (Session.step handler built) start (before ++ after) = some last ↔
      ∃ middle, run (Session.step handler built) start before = some middle ∧
        run (Session.step handler built) middle after = some last := by
  rw [run, List.foldlM_append]
  exact Option.bind_eq_some_iff

/-- After Ctrl+C at most the item that is awaited is read; before the handlers are built, none. -/
theorem items_after_interrupt {before after : List (Signal E)}
    (ran : run (Session.step handler built) (start wsSubscriptions)
      (before ++ .interrupt :: after) = some session) :
    (items after).length ≤ 1 ∧ (.built ∉ before → items after = []) := by
  rw [← List.singleton_append, ← List.append_assoc] at ran
  obtain ⟨middle, first, rest⟩ := (run_append _ after).mp ran
  have follows := run_follows first
  have late := items_late (follows.flag.mpr (by simp)) rest
  constructor
  · exact late.trans (by split <;> simp)
  · intro unbuilt
    have waits : middle.awaits = .handlers := follows.waiting.mpr (by simpa using unbuilt)
    rw [waits, if_neg (by decide)] at late
    exact List.length_eq_zero_iff.mp (Nat.le_zero.mp late)

/-- Every run of `stream`, for every handler: the subscriptions go out first and one close last,
once the run is over; the hub has ingested exactly the messages that were read; and the flag
stops the run at the next item, wherever it is set. -/
theorem stream_session (ran : run (Session.step handler built) (start wsSubscriptions) signals =
    some session) :
    session.sent = wsSubscriptions.map .text ++
        (if session.awaits = .nothing then [.close] else []) ∧
      (session.awaits = .nothing ↔ Over signals) ∧
      (.built ∈ signals → session.hub =
        some ((messages signals).foldl (MonitorMultiplexor.ingestMessage handler) built)) ∧
      (.built ∉ signals → session.hub = none ∧ items signals = []) ∧
      ∀ before after, signals = before ++ .interrupt :: after →
        (items after).length ≤ 1 ∧ (.built ∉ before → items after = []) := by
  have follows := run_follows ran
  refine ⟨follows.sent, follows.ended, follows.hub, follows.unbuilt, ?_⟩
  rintro before after rfl
  exact items_after_interrupt ran

def counting : EventHandler Nat Unit String Unit where
  toId := id
  handleUpdate := fun count ctx _ => (count + 1, ctx)
  parseUpdate := fun
    | .text payload => .ok (some payload)
    | _ => .ok none

def interrupted : List (Signal Unit) :=
  [.built, .item (some (.ok (.text "a"))), .interrupt, .item (some (.ok (.text "a")))]

/-- Ctrl+C while the loop waits: one more message is read, and the socket is closed. -/
theorem stream_session_interrupted : ∃ session,
    run (Session.step counting ⟨Keyed.Map.empty.insert "a" 0, ()⟩) (start ["subscribe"])
        interrupted = some session ∧
      session.sent = [.text "subscribe", .close] ∧ (items (interrupted.drop 3)).length ≤ 1 := by
  obtain ⟨session, ran⟩ : ∃ session, run
      (Session.step counting ⟨Keyed.Map.empty.insert "a" 0, ()⟩) (start ["subscribe"])
      interrupted = some session := ⟨_, rfl⟩
  obtain ⟨sent, finished, -, -, late⟩ := stream_session ran
  have split : interrupted = interrupted.take 2 ++ .interrupt :: interrupted.drop 3 := rfl
  have closed : session.awaits = .nothing := finished.mpr (.inr ⟨_, _, split, _, .head _, by simp⟩)
  rw [closed] at sent
  exact ⟨session, ran, sent, (late _ _ split).1⟩

end Session

end Trolly.Stream
