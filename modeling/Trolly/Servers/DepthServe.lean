import Trolly.Monitor.Copies
import Trolly.Monitor.DepthPipelines
import Trolly.Monitor.DepthStreams
import Trolly.Servers.BookServer

/-! The serve pipeline as a whole: a task for each symbol fetches its snapshot and sends the
factory of a new pair to the server; the handles are awaited in the order of the list, and the
stream is ingested. Tasks end in any order. -/
namespace Trolly.Servers

open Keyed LeftRight Trolly.Monitor Trolly.Stream

variable {P Q : Type}

/-- Left-right pairs, each under the number of the task that makes it; a pair without a writer
shows nothing. -/
abbrev Pairs (lob : Lob P Q) := Nat → Option (WriteHandle lob.Book (Operations lob))

def published {lob : Lob P Q} (pairs : Pairs lob) (factory : Nat) : Option lob.Book :=
  (pairs factory).map WriteHandle.reading

/-- The build tasks so far: their pairs, what they sent to the server, and what they return. -/
structure Tasks (lob : Lob P Q) where
  pairs : Pairs lob
  sent : List (String × Nat)
  results : Map Nat (String × Nat)

section Pipeline

variable {lob : Lob P Q} (table : Rust.CaseTable) (format : DepthFormat P Q)

def Tasks.new : Tasks lob := ⟨fun _ => none, [], .empty⟩

/-- `OrderBook::build` for the symbol of a task, once REST has answered: without a snapshot the
task panics, and nothing was sent. -/
def Tasks.ends (syms : List String) (tasks : Tasks lob) (ended : Nat × Option lob.Book) :
    Tasks lob :=
  match syms[ended.1]?, ended.2 with
  | some symbol, some snapshot =>
    let sent := tasks.sent ++ [(symbol, ended.1)]
    match OrderBook.build lob.absorb lob.default snapshot with
    | some w => ⟨Function.update tasks.pairs ended.1 (some w), sent,
        tasks.results.insert ended.1 (orderBookBuild symbol, ended.1)⟩
    | none => ⟨tasks.pairs, sent, tasks.results⟩
  | _, _ => tasks

/-- One turn of the loop over the handles. A writer whose key is inserted again is dropped. -/
def collect (results : Map Nat (String × Nat)) (built : Map String Nat × Pairs lob) (task : Nat) :
    Map String Nat × Pairs lob :=
  match results.get task with
  | some (id, handle) =>
    (built.1.insert id handle,
      match built.1.get id with
      | some replaced => Function.update built.2 replaced none
      | none => built.2)
  | none => built

/-- `servers::start` up to its serving: `n` factories are awaited, or the end of the channel. -/
def start : Nat → List (String × Nat) → BookRegistry → BookRegistry
  | 0, _, registry => registry
  | _ + 1, [], registry => registry
  | n + 1, (pair, factory) :: rest, registry =>
    start n rest (Hook.register table registry pair factory)

/-- The order book's handler; a failed assertion would leave nothing. -/
def orderBookHandler : EventHandler Nat (Pairs lob) (DepthUpdate P Q) String :=
  depthHandler format (fun handle pairs update => (handle, Function.update pairs handle
    ((pairs handle).bind (fun w => OrderBook.handleUpdate lob.absorb w update))))

/-- The symbols that the pipeline makes tasks for. -/
def taskSymbols (cfg : DepthConfig) : List String :=
  ((streamDepthServe table cfg).streaming.map Streaming.subscribed).getD []

/-- What the server knows and where the multiplexor stands, after the tasks of the stream ended
in some order and it received some messages. -/
def serveDepth (cfg : DepthConfig) (ended : List (Nat × Option lob.Book))
    (messages : List Message) : BookRegistry × MonitorMultiplexor Nat (Pairs lob) :=
  let serving := streamDepthServe table cfg
  match serving.streaming with
  | none => (start table serving.waits [] newRegistry, .fromWriters .empty (fun _ => none))
  | some streaming =>
    let syms := streaming.subscribed
    let tasks := ended.foldl (Tasks.ends syms) Tasks.new
    let (writers, pairs) :=
      (List.range syms.length).foldl (collect tasks.results) (.empty, tasks.pairs)
    (start table serving.waits tasks.sent newRegistry,
      messages.foldl (MonitorMultiplexor.ingestMessage (orderBookHandler format))
        (.fromWriters writers pairs))

/-- The tasks for a symbol that got a snapshot, in the order in which they ended. -/
def builtFor (syms : List String) (ended : List (Nat × Option lob.Book)) (key : String) :
    List (Nat × lob.Book) :=
  ended.filterMap (fun (task, snapshot) =>
    if syms[task]? = some key then snapshot.map (task, ·) else none)

/-- The updates among some messages. -/
def updatesIn (messages : List Message) : List (DepthUpdate P Q) :=
  messages.filterMap (fun msg =>
    if msg.isText then (parseDepthBytes format (intoData msg)).toOption.join else none)

/-- The book served for a symbol: the server has the factory that was sent last, and the writer
that is left is the one listed last. -/
def servedBook (built : List (Nat × lob.Book)) (updates : List (DepthUpdate P Q)) :
    Option lob.Book :=
  built.getLast?.bind (fun (task, snapshot) =>
    if ∀ other ∈ built, other.1 ≤ task then some (updates.foldl lob.absorbUpdate snapshot)
    else none)

/-! ### The tasks -/

variable {table format}

theorem build_reads (extending : lob.ExtendsDefault) (snapshot : lob.Book)
    (updates : List (DepthUpdate P Q)) :
    ∃ w, OrderBook.run lob.absorb lob.default snapshot updates = some w ∧
      w.reading = updates.foldl lob.absorbUpdate snapshot := by
  obtain ⟨w, ran, inStep, _⟩ := OrderBook.run_inStep extending snapshot updates
  refine ⟨w.forget, by rw [← OrderBook.forget_run, ran, Option.map_some], ?_⟩
  rw [WriteHandle.forget, inStep.reading]

/-- What a task sends. -/
def sentBy (syms : List String) (ended : Nat × Option lob.Book) : Option (String × Nat) :=
  ended.2.bind (fun _ => syms[ended.1]?.map (·, ended.1))

/-- Where the tasks stand after some of them ended. -/
structure Tasks.After (syms : List String) (ended : List (Nat × Option lob.Book))
    (tasks : Tasks lob) : Prop where
  sent : tasks.sent = ended.filterMap (sentBy syms)
  results : ∀ task, tasks.results.get task =
    last? (fun e => if e.1 = task then sentBy syms e else none) ended
  pairs : ∀ task snapshot, (task, some snapshot) ∈ ended → task < syms.length →
    tasks.pairs task = OrderBook.run lob.absorb lob.default snapshot []

theorem sentBy_some {syms : List String} {ended : Nat × Option lob.Book} {sent : String × Nat}
    (sends : sentBy syms ended = some sent) :
    ∃ snapshot, ended.2 = some snapshot ∧ syms[ended.1]? = some sent.1 ∧ sent.2 = ended.1 := by
  cases arrived : ended.2 with
  | none => simp [sentBy, arrived] at sends
  | some snapshot =>
    rw [sentBy, arrived, Option.bind_some, Option.map_eq_some_iff] at sends
    obtain ⟨symbol, placed, rfl⟩ := sends
    exact ⟨snapshot, rfl, placed, rfl⟩

theorem ends_idle {syms : List String} (tasks : Tasks lob) {ended : Nat × Option lob.Book}
    (silent : sentBy syms ended = none) : tasks.ends syms ended = tasks := by
  cases arrived : ended.2 with
  | none => cases placed : syms[ended.1]? <;> simp only [Tasks.ends, arrived, placed]
  | some snapshot =>
    have missing : syms[ended.1]? = none := by
      rw [sentBy, arrived, Option.bind_some, Option.map_eq_none_iff] at silent
      exact silent
    simp only [Tasks.ends, missing]

theorem ends_sends (extending : lob.ExtendsDefault) {syms : List String} (tasks : Tasks lob)
    {task : Nat} {snapshot : lob.Book} {symbol : String} (placed : syms[task]? = some symbol) :
    tasks.ends syms (task, some snapshot) =
      ⟨Function.update tasks.pairs task (OrderBook.run lob.absorb lob.default snapshot []),
        tasks.sent ++ [(symbol, task)], tasks.results.insert task (symbol, task)⟩ := by
  obtain ⟨w, ran, _⟩ := build_reads extending snapshot []
  have built : OrderBook.build lob.absorb lob.default snapshot = some w := by
    simpa [OrderBook.run] using ran
  simp only [Tasks.ends, placed, built, ran, orderBookBuild]

theorem ends_after (extending : lob.ExtendsDefault) (syms : List String)
    (ended : List (Nat × Option lob.Book)) (once : (ended.map Prod.fst).Nodup) :
    Tasks.After syms ended (ended.foldl (Tasks.ends syms) Tasks.new) := by
  induction ended using List.reverseRecOn with
  | nil => exact ⟨rfl, fun _ => rfl, fun _ _ member => absurd member List.not_mem_nil⟩
  | append_singleton before last ih =>
    rw [List.map_append, List.nodup_append] at once
    obtain ⟨earlier, _, apart⟩ := once
    obtain ⟨sent, results, pairs⟩ := ih earlier
    obtain ⟨task, arrived⟩ := last
    rw [List.foldl_concat]
    cases sends : sentBy syms (task, arrived) with
    | none =>
      rw [ends_idle _ sends]
      refine ⟨?_, fun other => ?_, fun other book member within => ?_⟩
      · rw [List.filterMap_append, ← sent, List.filterMap_cons_none sends]
        simp
      · rw [last?_append, ← results, last?_singleton, sends]
        simp
      · rcases List.mem_append.mp member with old | new
        · exact pairs other book old within
        · cases List.mem_singleton.mp new
          simp [sentBy, within] at sends
    | some message =>
      obtain ⟨snapshot, found, placed, own⟩ := sentBy_some sends
      dsimp only at found placed own
      subst found
      rw [ends_sends extending _ placed]
      obtain ⟨symbol, number⟩ := message
      cases own
      refine ⟨?_, fun other => ?_, fun other book member within => ?_⟩
      · rw [List.filterMap_append, ← sent, List.filterMap_cons_some sends]
        rfl
      · rw [last?_append, ← results, last?_singleton, sends, Map.get_insert]
        rcases eq_or_ne other number with rfl | different
        · simp
        · simp [different, different.symm]
      · dsimp only
        rcases List.mem_append.mp member with old | new
        · have different : other ≠ number := apart _ (List.mem_map_of_mem old) _ (by simp)
          rw [Function.update_of_ne different]
          exact pairs other book old within
        · cases List.mem_singleton.mp new
          rw [Function.update_self]

/-! ### The handles -/

/-- The handle of a task, if it is for a key. -/
def handleFor (results : Map Nat (String × Nat)) (key : String) (task : Nat) : Option Nat :=
  (results.get task).bind (fun result => if result.1 = key then some result.2 else none)

/-- After some turns of the loop: a key has its last handle, whose pair is as it was built; the
pairs of the handles before are gone. -/
structure Collected (results : Map Nat (String × Nat)) (pairs : Pairs lob) (count : Nat)
    (built : Map String Nat × Pairs lob) : Prop where
  writers : ∀ key, built.1.get key = last? (handleFor results key) (List.range count)
  later : ∀ task, count ≤ task → built.2 task = pairs task
  live : ∀ key task, built.1.get key = some task → built.2 task = pairs task
  dropped : ∀ task < count, ∀ id, results.get task = some (id, task) →
    built.1.get id ≠ some task → built.2 task = none

variable {results : Map Nat (String × Nat)}

theorem handleFor_own (own : ∀ task result, results.get task = some result → result.2 = task)
    {key : String} {task handle : Nat} (found : handleFor results key task = some handle) :
    handle = task ∧ results.get task = some (key, task) := by
  rw [handleFor, Option.bind_eq_some_iff] at found
  obtain ⟨result, held, passes⟩ := found
  split_ifs at passes with same
  cases passes
  refine ⟨own task result held, ?_⟩
  rw [held, ← same, ← own task result held]

/-- A key's handle is that of a task for it. -/
theorem Collected.writer (own : ∀ task result, results.get task = some result → result.2 = task)
    {pairs : Pairs lob} {count : Nat} {built : Map String Nat × Pairs lob}
    (collected : Collected results pairs count built) {key : String} {task : Nat}
    (holds : built.1.get key = some task) : task < count ∧ results.get task = some (key, task) := by
  rw [collected.writers] at holds
  obtain ⟨place, member, found⟩ := last?_mem holds
  obtain ⟨rfl, result⟩ := handleFor_own own found
  exact ⟨List.mem_range.mp member, result⟩

theorem collect_found (built : Map String Nat × Pairs lob) {task handle : Nat} {id : String}
    (found : results.get task = some (id, handle)) :
    (collect results built task).1 = built.1.insert id handle ∧
      ∀ other, (collect results built task).2 other =
        if built.1.get id = some other then none else built.2 other := by
  simp only [collect, found]
  refine ⟨trivial, fun other => ?_⟩
  cases held : built.1.get id with
  | none => simp
  | some replaced =>
    rcases eq_or_ne other replaced with rfl | different
    · simp
    · simp [different, different.symm]

theorem collect_collected
    (own : ∀ task result, results.get task = some result → result.2 = task)
    (pairs : Pairs lob) (count : Nat) :
    Collected results pairs count ((List.range count).foldl (collect results) (.empty, pairs)) := by
  induction count with
  | zero => exact ⟨fun _ => rfl, fun _ _ => rfl, fun _ _ found => (by cases found), by simp⟩
  | succ count ih =>
    rw [List.range_succ, List.foldl_concat]
    set built := (List.range count).foldl (collect results) (.empty, pairs)
    cases result : results.get count with
    | none =>
      have idle : collect results built count = built := by simp only [collect, result]
      rw [idle]
      refine ⟨fun key => ?_, fun task above => ih.later task (by omega), ih.live, ?_⟩
      · rw [List.range_succ, last?_append, last?_singleton, handleFor, result, Option.bind_none,
          Option.none_or, ih.writers]
      · intro task below id found
        have different : task ≠ count := by
          rintro rfl
          rw [result] at found
          cases found
        exact ih.dropped task (by omega) id found
    | some pair =>
      obtain ⟨id, handle⟩ := pair
      obtain rfl : handle = count := own count _ result
      obtain ⟨inserted, drops⟩ := collect_found built result
      have fresh : built.1.get id ≠ some handle := by
        intro held
        have below := (ih.writer own held).1
        omega
      refine ⟨fun key => ?_, fun task above => ?_, fun key task holds => ?_, ?_⟩
      · rw [List.range_succ, last?_append, last?_singleton, inserted, Map.get_insert, ih.writers,
          handleFor, result, Option.bind_some]
        rcases eq_or_ne key id with rfl | different
        · simp
        · simp [different, different.symm]
      · have other : built.1.get id ≠ some task := by
          intro held
          have below := (ih.writer own held).1
          omega
        rw [drops, if_neg other, ih.later task (by omega)]
      · rw [inserted, Map.get_insert] at holds
        rw [drops]
        split_ifs at holds with same
        · cases holds
          rw [if_neg fresh, ih.later _ (le_refl _)]
        · have other : built.1.get id ≠ some task := by
            intro held
            have here := (ih.writer own held).2
            have there := (ih.writer own holds).2
            rw [here] at there
            cases there
            exact same rfl
          rw [if_neg other, ih.live key task holds]
      · intro task below id' found lost
        rw [inserted, Map.get_insert] at lost
        rw [drops]
        by_cases here : built.1.get id = some task
        · rw [if_pos here]
        · rw [if_neg here]
          have different : task ≠ handle := by
            rintro rfl
            rw [result] at found
            cases found
            simp at lost
          refine ih.dropped task (by omega) id' found ?_
          split_ifs at lost with same
          · rw [same]
            exact here
          · exact lost

/-! ### The stream -/

variable (format) in
theorem ingest_updates (messages : List Message) (hub : MonitorMultiplexor Nat (Pairs lob)) :
    messages.foldl (MonitorMultiplexor.ingestMessage (orderBookHandler format)) hub =
      (updatesIn format messages).foldl
        (MonitorMultiplexor.deliver (orderBookHandler format).toUpdateHandler) hub := by
  induction messages generalizing hub with
  | nil => rfl
  | cons msg rest ih =>
    rw [List.foldl_cons, ih, updatesIn, updatesIn]
    by_cases text : msg.isText
    · cases parsed : parseDepthBytes format (intoData msg) with
      | error error =>
        have idle : hub.ingestMessage (orderBookHandler format) msg = hub := by
          simp [MonitorMultiplexor.ingestMessage, text, orderBookHandler, depthHandler, parsed]
        rw [idle, List.filterMap_cons_none (by simp [text, parsed, Except.toOption])]
      | ok outcome =>
        cases outcome with
        | none =>
          have idle : hub.ingestMessage (orderBookHandler format) msg = hub := by
            simp [MonitorMultiplexor.ingestMessage, text, orderBookHandler, depthHandler, parsed]
          rw [idle, List.filterMap_cons_none (by simp [text, parsed, Except.toOption])]
        | some update =>
          rw [List.filterMap_cons_some (b := update) (by simp [text, parsed, Except.toOption])]
          simp only [MonitorMultiplexor.ingestMessage, text, if_true, orderBookHandler,
            depthHandler, parsed, List.foldl_cons]
    · have idle : hub.ingestMessage (orderBookHandler format) msg = hub := by
        simp [MonitorMultiplexor.ingestMessage, text]
      rw [idle, List.filterMap_cons_none (by simp [text])]

variable (format) in
/-- One update: the writers stay, and it is absorbed by the pair of its symbol's writer. -/
theorem deliver_pairs (hub : MonitorMultiplexor Nat (Pairs lob)) (update : DepthUpdate P Q) :
    (hub.deliver (orderBookHandler format).toUpdateHandler update).writers = hub.writers ∧
      ∀ pair, (hub.deliver (orderBookHandler format).toUpdateHandler update).ctx pair =
        if hub.writers.get update.symbol = some pair then
          (hub.ctx pair).bind (fun w => OrderBook.handleUpdate lob.absorb w update)
        else hub.ctx pair := by
  cases held : hub.writers.get update.symbol with
  | none =>
    rw [hub.deliver_missing (orderBookHandler format).toUpdateHandler update held]
    exact ⟨rfl, fun pair => by simp⟩
  | some handle =>
    rw [hub.deliver_found (orderBookHandler format).toUpdateHandler update held]
    refine ⟨Map.insert_get _ held, fun pair => ?_⟩
    rcases eq_or_ne pair handle with rfl | different
    · simp [orderBookHandler, depthHandler]
    · simp [orderBookHandler, depthHandler, different, different.symm]

/-- A pair absorbs the updates for the one key whose writer has it, if there is one. -/
theorem deliver_all (updates : List (DepthUpdate P Q)) (hub : MonitorMultiplexor Nat (Pairs lob)) :
    (updates.foldl (MonitorMultiplexor.deliver (orderBookHandler format).toUpdateHandler)
        hub).writers = hub.writers ∧
      ∀ pair, (updates.foldl (MonitorMultiplexor.deliver (orderBookHandler format).toUpdateHandler)
          hub).ctx pair =
        (hub.ctx pair).bind ((updates.filter (fun update =>
          hub.writers.get update.symbol = some pair)).foldlM
            (OrderBook.handleUpdate lob.absorb)) := by
  induction updates generalizing hub with
  | nil => exact ⟨rfl, fun pair => by cases held : hub.ctx pair <;> simp [held]⟩
  | cons update rest ih =>
    obtain ⟨writers, pairs⟩ := deliver_pairs format hub update
    obtain ⟨later, absorbed⟩ := ih (hub.deliver (orderBookHandler format).toUpdateHandler update)
    rw [List.foldl_cons]
    refine ⟨later.trans writers, fun pair => ?_⟩
    rw [absorbed, pairs, writers]
    by_cases own : hub.writers.get update.symbol = some pair
    · rw [if_pos own, List.filter_cons_of_pos (by simpa using own), Option.bind_assoc]
      rfl
    · rw [if_neg own, List.filter_cons_of_neg (by simpa using own)]

/-! ### The registry -/

theorem start_get {sent : List (String × Nat)} {count : Nat}
    (enough : sent.length ≤ count) (upper : ∀ s ∈ sent, table.toUppercase s.1 = s.1)
    (registry : BookRegistry) (key : String) :
    (start table count sent registry).get key =
      (last? (fun s => if s.1 = key then some (BookHandle.leftRight s.2) else none) sent).or
        (registry.get key) := by
  induction sent generalizing count registry with
  | nil => cases count <;> simp [start, last?]
  | cons first rest ih =>
    cases count with
    | zero => simp at enough
    | succ count =>
      obtain ⟨own, others⟩ := List.forall_mem_cons.mp upper
      rw [start, ih (by simpa using enough) others, last?_cons, Hook.register, own, Map.get_insert]
      rcases eq_or_ne key first.1 with rfl | different
      · simp
      · simp [different, different.symm]

/-! ### What is served -/

theorem mem_builtFor {syms : List String} {ended : List (Nat × Option lob.Book)} {key : String}
    {task : Nat} {snapshot : lob.Book} :
    (task, snapshot) ∈ builtFor syms ended key ↔
      (task, some snapshot) ∈ ended ∧ syms[task]? = some key := by
  simp only [builtFor, List.mem_filterMap, Prod.exists]
  constructor
  · rintro ⟨i, arrived, member, found⟩
    split_ifs at found with placed
    obtain ⟨book, rfl, same⟩ := Option.map_eq_some_iff.mp found
    cases same
    exact ⟨member, placed⟩
  · rintro ⟨member, placed⟩
    exact ⟨task, some snapshot, member, by simp [placed]⟩

/-- The task of a key has returned when it is among those that were built. -/
theorem Tasks.After.result_iff {syms : List String} {ended : List (Nat × Option lob.Book)}
    {tasks : Tasks lob} (after : Tasks.After syms ended tasks)
    (once : (ended.map Prod.fst).Nodup) {task : Nat} {key : String} {handle : Nat} :
    tasks.results.get task = some (key, handle) ↔
      handle = task ∧ ∃ snapshot, (task, snapshot) ∈ builtFor syms ended key := by
  have unique : ∀ e ∈ ended, ∀ e' ∈ ended, e.1 = e'.1 → e = e' :=
    fun e member e' member' same => List.inj_on_of_nodup_map once member member' same
  rw [after.results]
  constructor
  · intro found
    obtain ⟨e, member, sends⟩ := last?_mem found
    split_ifs at sends with own
    obtain ⟨snapshot, arrived, placed, number⟩ := sentBy_some sends
    dsimp only at placed number
    subst own
    refine ⟨number, snapshot, mem_builtFor.mpr ⟨?_, placed⟩⟩
    rw [← arrived]
    exact member
  · rintro ⟨rfl, snapshot, built⟩
    obtain ⟨member, placed⟩ := mem_builtFor.mp built
    have sends : sentBy syms (handle, some snapshot) = some (key, handle) := by
      simp [sentBy, placed]
    cases found : last? (fun e => if e.1 = handle then sentBy syms e else none) ended with
    | none =>
      have silent := last?_none_iff.mp found _ member
      simp [sends] at silent
    | some result =>
      obtain ⟨e, there, read⟩ := last?_mem found
      split_ifs at read with own
      cases unique e there _ member own
      rw [← read, sends]

theorem registry_built {syms : List String} {ended : List (Nat × Option lob.Book)}
    {tasks : Tasks lob} (after : Tasks.After syms ended tasks) {count : Nat}
    (enough : ended.length ≤ count) (upper : ∀ symbol ∈ syms, table.toUppercase symbol = symbol)
    (key : String) :
    (start table count tasks.sent newRegistry).get key =
      (builtFor syms ended key).getLast?.map (fun built => .leftRight built.1) := by
  have sent : tasks.sent.length ≤ count := by
    rw [after.sent]
    exact (List.length_filterMap_le _ _).trans enough
  have cased : ∀ s ∈ tasks.sent, table.toUppercase s.1 = s.1 := by
    intro s member
    rw [after.sent] at member
    obtain ⟨e, _, sends⟩ := List.mem_filterMap.mp member
    obtain ⟨_, _, placed, _⟩ := sentBy_some sends
    exact upper _ (List.mem_of_getElem? placed)
  rw [start_get sent cased, newRegistry, Map.get_empty, Option.or_none, after.sent,
    last?_filterMap, builtFor, last?_getLast?, ← last?_map_some]
  refine last?_congr (fun e _ => ?_)
  obtain ⟨task, snapshot⟩ := e
  cases snapshot with
  | none => simp [sentBy]
  | some book =>
    cases placed : syms[task]? with
    | none => simp [sentBy, placed]
    | some symbol =>
      rcases eq_or_ne symbol key with rfl | different
      · simp [sentBy, placed]
      · simp [sentBy, placed, different]

theorem numbered {syms : List String} {ended : List (Nat × Option lob.Book)} {tasks : Tasks lob}
    (after : Tasks.After syms ended tasks) (once : (ended.map Prod.fst).Nodup) (task : Nat)
    (result : String × Nat) (found : tasks.results.get task = some result) : result.2 = task :=
  ((after.result_iff once).mp found).1

theorem task_within {syms : List String} {ended : List (Nat × Option lob.Book)} {key : String}
    {task : Nat} {snapshot : lob.Book} (built : (task, snapshot) ∈ builtFor syms ended key) :
    task < syms.length := by
  obtain ⟨below, _⟩ := List.getElem?_eq_some_iff.mp (mem_builtFor.mp built).2
  exact below

/-- The writer that a key is left with is the last of the list. -/
theorem writer_iff {syms : List String} {ended : List (Nat × Option lob.Book)} {tasks : Tasks lob}
    (after : Tasks.After syms ended tasks) (once : (ended.map Prod.fst).Nodup)
    {built : Map String Nat × Pairs lob}
    (collected : Collected tasks.results tasks.pairs syms.length built) {key : String} {task : Nat}
    {snapshot : lob.Book} (own : (task, snapshot) ∈ builtFor syms ended key) :
    built.1.get key = some task ↔ ∀ other ∈ builtFor syms ended key, other.1 ≤ task := by
  rw [collected.writers, last?_range_iff
    (fun i j found => (handleFor_own (numbered after once) found).1)]
  constructor
  · rintro ⟨_, _, most⟩ ⟨other, book⟩ listed
    have there := (after.result_iff once).mpr ⟨rfl, book, listed⟩
    exact most other (task_within listed) (by simp [handleFor, there])
  · intro most
    have returned := (after.result_iff once).mpr ⟨rfl, snapshot, own⟩
    refine ⟨task_within own, by simp [handleFor, returned], fun i _ found => ?_⟩
    obtain ⟨handle, read⟩ := Option.isSome_iff_exists.mp found
    obtain ⟨rfl, result⟩ := handleFor_own (numbered after once) read
    obtain ⟨_, book, listed⟩ := (after.result_iff once).mp result
    exact most _ listed

/-- What is published under a factory that was sent for a key. -/
theorem published_built (extending : lob.ExtendsDefault) {syms : List String}
    {ended : List (Nat × Option lob.Book)} {tasks : Tasks lob}
    (after : Tasks.After syms ended tasks) (once : (ended.map Prod.fst).Nodup)
    {built : Map String Nat × Pairs lob}
    (collected : Collected tasks.results tasks.pairs syms.length built)
    (updates : List (DepthUpdate P Q)) {key : String} {task : Nat} {snapshot : lob.Book}
    (own : (task, snapshot) ∈ builtFor syms ended key) :
    published (updates.foldl (MonitorMultiplexor.deliver (orderBookHandler format).toUpdateHandler)
        (.fromWriters built.1 built.2)).ctx task =
      if ∀ other ∈ builtFor syms ended key, other.1 ≤ task then
        some ((updates.filter (fun update => update.symbol = key)).foldl lob.absorbUpdate snapshot)
      else none := by
  have kept := writer_iff after once collected own
  have returned := (after.result_iff once).mpr ⟨rfl, snapshot, own⟩
  rw [published, (deliver_all updates _).2]
  simp only [MonitorMultiplexor.fromWriters]
  by_cases live : built.1.get key = some task
  · have keyed : ∀ update : DepthUpdate P Q, built.1.get update.symbol = some task ↔
        update.symbol = key := by
      intro update
      refine ⟨fun holds => ?_, fun same => by rw [same, live]⟩
      have there := (collected.writer (numbered after once) holds).2
      rw [returned] at there
      cases there
      rfl
    obtain ⟨w, ran, reads⟩ := build_reads extending snapshot
      (updates.filter (fun update => update.symbol = key))
    have joined : (OrderBook.run lob.absorb lob.default snapshot []).bind
        ((updates.filter (fun update => update.symbol = key)).foldlM
          (OrderBook.handleUpdate lob.absorb)) =
        OrderBook.run lob.absorb lob.default snapshot
          (updates.filter (fun update => update.symbol = key)) := by
      simp [OrderBook.run]
    rw [if_pos (kept.mp live), collected.live key task live,
      after.pairs task snapshot (mem_builtFor.mp own).1 (task_within own)]
    simp only [keyed]
    rw [joined, ran, Option.map_some, reads]
  · rw [if_neg (live ∘ kept.mpr), collected.dropped task (task_within own) key returned live]
    rfl

/-- The server waits for as many books as there are tasks, whose symbols are in upper case. -/
theorem streaming_symbols (lawful : ∀ c, table.Tame c) (cfg : DepthConfig) {streaming : Streaming}
    (streams : (streamDepthServe table cfg).streaming = some streaming) :
    (streamDepthServe table cfg).waits = streaming.subscribed.length ∧
      ∀ symbol ∈ streaming.subscribed, table.toUppercase symbol = symbol := by
  have syms : streaming.subscribed = (commaParts cfg.symbols).map table.toUppercase := by
    rw [← commaParts_upper lawful]
    unfold streamDepthServe at streams
    cases provider : cfg.provider with
    | other => simp [provider] at streams
    | _ =>
      simp only [provider, Option.some.injEq] at streams
      rw [← streams]
      rfl
  rw [syms]
  refine ⟨by simp [streamDepthServe], fun symbol member => ?_⟩
  obtain ⟨part, _, rfl⟩ := List.mem_map.mp member
  exact Rust.CaseTable.toUppercase_idem lawful part

/-- The book of every request, whatever tasks got a snapshot, in whatever order they ended: the
snapshot of the task that ended last among those of the symbol, with all its updates since; but
nothing, for good, if the symbol was built once more for a later place of the list. -/
theorem requests_served (lawful : ∀ c, table.Tame c) (extending : lob.ExtendsDefault)
    (format : DepthFormat P Q) (cfg : DepthConfig) {ended : List (Nat × Option lob.Book)}
    (once : (ended.map Prod.fst).Perm (List.range (taskSymbols table cfg).length))
    (messages : List Message) (pair : String) :
    let reached := serveDepth table format cfg ended messages
    let key := table.toUppercase pair
    Hook.get table (published reached.2.ctx) (fun _ => lob.default) reached.1 pair =
      servedBook (builtFor (taskSymbols table cfg) ended key)
        ((updatesIn format messages).filter (fun update => update.symbol = key)) := by
  intro reached key
  have distinct : (ended.map Prod.fst).Nodup := once.nodup_iff.mpr List.nodup_range
  have count : ended.length = (taskSymbols table cfg).length := by
    simpa using once.length_eq
  cases streams : (streamDepthServe table cfg).streaming with
  | none =>
    have none : taskSymbols table cfg = [] := by rw [taskSymbols, streams]; rfl
    have empty : ended = [] := List.eq_nil_of_length_eq_zero (by rw [count, none]; rfl)
    have idle : reached.1 = start table (streamDepthServe table cfg).waits [] newRegistry := by
      simp only [reached, serveDepth, streams]
    have missing : reached.1.get key = Option.none := by
      rw [idle, start_get (by simp) (by simp)]
      rfl
    simp only [Hook.get, key, missing, empty]
    rfl
  | some streaming =>
    obtain ⟨waits, upper⟩ := streaming_symbols lawful cfg streams
    have syms : taskSymbols table cfg = streaming.subscribed := by rw [taskSymbols, streams]; rfl
    rw [syms] at count ⊢
    have after := ends_after extending streaming.subscribed ended distinct
    set tasks : Tasks lob := ended.foldl (Tasks.ends streaming.subscribed) Tasks.new
    have collected := collect_collected (numbered after distinct) tasks.pairs
      streaming.subscribed.length
    have registry : reached.1 =
        start table (streamDepthServe table cfg).waits tasks.sent newRegistry := by
      simp only [reached, serveDepth, streams, tasks]
    have hub : reached.2 = (updatesIn format messages).foldl
        (MonitorMultiplexor.deliver (orderBookHandler format).toUpdateHandler)
        (.fromWriters ((List.range streaming.subscribed.length).foldl (collect tasks.results)
            (.empty, tasks.pairs)).1
          ((List.range streaming.subscribed.length).foldl (collect tasks.results)
            (.empty, tasks.pairs)).2) := by
      rw [← ingest_updates]
      simp only [reached, serveDepth, streams, tasks]
    have found : reached.1.get key = _ :=
      registry ▸ registry_built after (by rw [waits, count]) upper key
    cases last : (builtFor streaming.subscribed ended key).getLast? with
    | none =>
      rw [last, Option.map_none] at found
      rw [Hook.get, found, servedBook, last, Option.bind_none]
    | some built =>
      obtain ⟨task, snapshot⟩ := built
      rw [last, Option.map_some] at found
      rw [Hook.get, found, servedBook, last, Option.bind_some, hub]
      exact published_built extending after distinct collected (updatesIn format messages)
        (List.mem_of_getLast? last)

def twiceConfig : DepthConfig := ⟨.binance, "btcusdt,BTCUSDT", none, none, .serve⟩

/-- Every payload is one update. -/
def oneUpdate : DepthFormat Nat Nat where
  envelope := fun _ => none
  update := fun _ => some (Lob.bidUpdate 5 6 [(100, 3)])
  nullResponse := fun _ => none

/-- A symbol listed twice is served when its tasks end in the order of the list, and is not found
when they end the other way round. -/
theorem requests_served_twice :
    let books := Lob.levelBooks Nat Nat
    let first : books.Book := ⟨4, [((.bid, 100), 1)]⟩
    let second : books.Book := ⟨5, [((.bid, 100), 2)]⟩
    let found (ended : List (Nat × Option books.Book)) :=
      let reached := serveDepth .asciiOnly oneUpdate twiceConfig ended [.text "update"]
      Hook.get .asciiOnly (published reached.2.ctx) (fun _ => books.default) reached.1 "BtcUsdt"
    found [(0, some first), (1, some second)] =
        some ⟨6, [((.bid, 100), 2), ((.bid, 100), 3)]⟩ ∧
      found [(1, some second), (0, some first)] = none := by
  intro books first second found
  have symbols : taskSymbols .asciiOnly twiceConfig = ["BTCUSDT", "BTCUSDT"] := by decide
  refine ⟨(requests_served Rust.CaseTable.asciiOnly_tame (Lob.levelBooks_extendsDefault _ _)
      oneUpdate twiceConfig ?_ _ "BtcUsdt").trans ?_,
    (requests_served Rust.CaseTable.asciiOnly_tame (Lob.levelBooks_extendsDefault _ _)
      oneUpdate twiceConfig ?_ _ "BtcUsdt").trans ?_⟩
  all_goals rw [symbols]
  all_goals decide

end Pipeline

end Trolly.Servers
