import Mathlib.Data.List.Dedup
import Trolly.Monitor.GlobalStream

/-! Starting and stopping the streams of a global book. Every stream makes a `Terminate` of
its own when its task is first polled, and each of them asks for the process-wide Ctrl+C
handler. Connecting and subscribing are taken to succeed. -/
namespace Trolly.Monitor

open Keyed

/-- What the closure given to `ctrlc::set_handler` does to the flags of the process. -/
abbrev Handler := (Nat → Bool) → (Nat → Bool)

/-- The crate `ctrlc`: the state it keeps for the process, and the handler Ctrl+C runs. -/
structure Ctrlc where
  State : Type
  initial : State
  setHandler : State → Handler → Except Unit State
  handler : State → Option Handler

/-- `set_handler` succeeds on the first call in a process and fails on every later one. -/
structure Ctrlc.SetsOnce (ctrlc : Ctrlc) : Prop where
  first : ∀ handler, ∃ state, ctrlc.setHandler ctrlc.initial handler = .ok state ∧
    ctrlc.handler state = some handler
  later : ∀ handler state, ctrlc.setHandler ctrlc.initial handler = .ok state →
    ∀ next, ctrlc.setHandler state next = .error ()

/-- The process: the flags that were allocated, and for each running stream the flag that
its loop reads. -/
structure Process (ctrlc : Ctrlc) where
  signals : ctrlc.State
  flags : Nat → Bool
  nextFlag : Nat
  running : List (Provider × Nat)
  panicked : Bool

namespace Process

variable {ctrlc : Ctrlc}

def new (ctrlc : Ctrlc) : Process ctrlc := ⟨ctrlc.initial, fun _ => false, 0, [], false⟩

/-- `Terminate::set_ctrl_c`; `none` is the panic of `expect`. -/
def setCtrlC (process : Process ctrlc) (terminationFlag : Nat) : Option (Process ctrlc) :=
  match ctrlc.setHandler process.signals (fun flags => Function.update flags terminationFlag true) with
  | .ok signals => some { process with signals }
  | .error _ => none

/-- `Terminate::new`: a fresh flag, and its handler. -/
def terminate (process : Process ctrlc) : Option (Process ctrlc × Nat) :=
  let flag := process.nextFlag
  let allocated := { process with
    flags := Function.update process.flags flag false
    nextFlag := flag + 1 }
  (allocated.setCtrlC flag).map (·, flag)

/-- `connectors::stream`, up to its first await. A panic unwinds through `join_all` and drops
every other task. -/
def stream (process : Process ctrlc) (provider : Provider) : Process ctrlc :=
  match process.terminate with
  | some (process, shutdown) => { process with running := process.running ++ [(provider, shutdown)] }
  | none => { process with running := [], panicked := true }

def firstPoll (process : Process ctrlc) (provider : Provider) : Process ctrlc :=
  if process.panicked then process
  else match provider with
    | .binance => process.stream .binance
    | .binanceUsdM => process.stream .binanceUsdM
    | .stub => process.stream .stub
    | .other => process

def firstPolls (ctrlc : Ctrlc) (order : List Provider) : Process ctrlc :=
  order.foldl firstPoll (new ctrlc)

def interrupt (process : Process ctrlc) : Process ctrlc :=
  match ctrlc.handler process.signals with
  | some handler => { process with flags := handler process.flags }
  | none => process

/-- The tasks polled so far run one stream for each wired provider, none of them panicked,
and Ctrl+C sets the flag that each running stream reads. -/
structure Started (polled : List Provider) (process : Process ctrlc) : Prop where
  noPanic : process.panicked = false
  streams : process.running.map Prod.fst = polled.filter (· ∈ Provider.wired)
  stopped : ∀ stream ∈ process.running, process.interrupt.flags stream.2 = true

/-! What the first polls do. -/

def withStream (signals : ctrlc.State) (provider : Provider) : Process ctrlc :=
  ⟨signals, Function.update (fun _ => false) 0 false, 1, [(provider, 0)], false⟩

/-- The state of the process is told by the wired providers polled: none, one, or more. -/
structure Polled (streams : List Provider) (process : Process ctrlc) : Prop where
  idle : streams = [] → process = new ctrlc
  one : ∀ provider, streams = [provider] → ∃ signals,
    ctrlc.setHandler ctrlc.initial (fun flags => Function.update flags 0 true) = .ok signals ∧
      process = withStream signals provider
  more : 2 ≤ streams.length → process.panicked = true

theorem firstPoll_wired {process : Process ctrlc} {provider : Provider}
    (wired : provider ∈ Provider.wired) (sound : process.panicked = false) :
    process.firstPoll provider = process.stream provider := by
  cases provider with
  | other => simp [Provider.wired] at wired
  | _ => simp [firstPoll, sound]

theorem firstPoll_unwired {process : Process ctrlc} {provider : Provider}
    (unwired : provider ∉ Provider.wired) : process.firstPoll provider = process := by
  cases provider with
  | other => simp [firstPoll]
  | _ => simp [Provider.wired] at unwired

theorem stream_panics (once : ctrlc.SetsOnce) {process : Process ctrlc} {handler : Handler}
    (set : ctrlc.setHandler ctrlc.initial handler = .ok process.signals) (provider : Provider) :
    (process.stream provider).panicked = true := by
  simp [stream, terminate, setCtrlC, once.later handler _ set]

theorem Polled.next (once : ctrlc.SetsOnce) {streams : List Provider} {process : Process ctrlc}
    (polled : Polled streams process) {provider : Provider} (wired : provider ∈ Provider.wired) :
    Polled (streams ++ [provider]) (process.firstPoll provider) := by
  rcases streams with _ | ⟨first, _ | ⟨second, rest⟩⟩
  · -- the first stream gets the handler
    obtain ⟨signals, set, _⟩ := once.first (fun flags => Function.update flags 0 true)
    have idle := polled.idle rfl
    subst idle
    refine ⟨fun none => by simp at none, fun p one => ?_, fun two => by simp at two⟩
    cases one
    refine ⟨signals, set, ?_⟩
    rw [firstPoll_wired wired rfl]
    simp [stream, terminate, setCtrlC, new, set, withStream]
  · -- the second one is refused
    obtain ⟨signals, set, same⟩ := polled.one first rfl
    subst same
    refine ⟨fun none => by simp at none, fun p one => by simp at one, fun _ => ?_⟩
    rw [firstPoll_wired wired rfl]
    exact stream_panics once set provider
  · have panicked := polled.more (by simp)
    refine ⟨fun none => by simp at none, fun p one => by simp at one, fun _ => ?_⟩
    unfold firstPoll
    rw [if_pos panicked]
    exact panicked

theorem firstPolls_polled (once : ctrlc.SetsOnce) (order : List Provider) :
    Polled (order.filter (· ∈ Provider.wired)) (firstPolls ctrlc order) := by
  induction order using List.reverseRecOn with
  | nil => exact
      { idle := fun _ => rfl
        one := fun _ one => by cases one
        more := fun two => by simp at two }
  | append_singleton order provider ih =>
    rw [firstPolls, List.foldl_append, List.foldl_cons, List.foldl_nil, ← firstPolls,
      List.filter_append]
    by_cases wired : provider ∈ Provider.wired
    · simpa [wired] using ih.next once wired
    · simpa [wired, firstPoll_unwired wired] using ih

/-- With at most one wired provider among those polled, all is well; with more, none runs. -/
theorem started_iff (once : ctrlc.SetsOnce) (polled : List Provider) :
    Started polled (firstPolls ctrlc polled) ↔
      (polled.filter (· ∈ Provider.wired)).length ≤ 1 := by
  have after := firstPolls_polled once polled
  constructor
  · intro started
    by_contra two
    have panicked := after.more (by omega)
    rw [started.noPanic] at panicked
    cases panicked
  · intro few
    rcases streams : polled.filter (· ∈ Provider.wired) with _ | ⟨provider, _ | ⟨second, rest⟩⟩
    · have idle := after.idle streams
      refine ⟨?_, ?_, ?_⟩ <;> rw [idle]
      · rfl
      · rw [streams]; rfl
      · intro stream member; cases member
    · obtain ⟨signals, set, running⟩ := after.one provider streams
      obtain ⟨state, same, handler⟩ := once.first (fun flags => Function.update flags 0 true)
      cases set.symm.trans same
      refine ⟨?_, ?_, ?_⟩ <;> rw [running]
      · rfl
      · rw [streams]; rfl
      · intro stream member
        cases List.mem_singleton.mp member
        simp [interrupt, withStream, handler]
    · rw [streams] at few
      simp at few

theorem few_wired {sources : List BookSource} (single : ∀ s ∈ sources, ∀ t ∈ sources,
      s.provider ∈ Provider.wired → t.provider ∈ Provider.wired → s.provider = t.provider)
    {order polled : List Provider} (iterates : (byProvider sources).IterationOrder order)
    (before : polled <+: order) : (polled.filter (· ∈ Provider.wired)).length ≤ 1 := by
  have source : ∀ p ∈ polled.filter (· ∈ Provider.wired), p ∈ Provider.wired ∧
      ∃ s ∈ sources, s.provider = p := by
    intro p member
    obtain ⟨there, wired⟩ := List.mem_filter.mp member
    exact ⟨of_decide_eq_true wired,
      (byProvider_isSome sources p).mp ((iterates.2 p).mp (before.subset there))⟩
  have distinct : (polled.filter (· ∈ Provider.wired)).Nodup :=
    (iterates.1.sublist before.sublist).filter _
  generalize polled.filter (· ∈ Provider.wired) = streams at source distinct ⊢
  rcases streams with _ | ⟨p, _ | ⟨q, rest⟩⟩
  · simp
  · simp
  · obtain ⟨wiredP, s, sourceS, rfl⟩ := source p (by simp)
    obtain ⟨wiredQ, t, sourceT, rfl⟩ := source q (by simp)
    have same := single s sourceS t sourceT wiredP wiredQ
    simp [same] at distinct

/-- For every list of sources: in every order in which the tasks are first polled, and after
any number of these polls, one stream runs for each wired provider polled, none panicked and
Ctrl+C stops them all, if and only if the sources name at most one distinct wired provider. -/
theorem streams_start_iff {ctrlc : Ctrlc} (once : ctrlc.SetsOnce) (sources : List BookSource) :
    (∀ order, (byProvider sources).IterationOrder order → ∀ polled, polled <+: order →
        Started polled (firstPolls ctrlc polled)) ↔
      ∀ s ∈ sources, ∀ t ∈ sources, s.provider ∈ Provider.wired → t.provider ∈ Provider.wired →
        s.provider = t.provider := by
  constructor
  · intro started s sourceS t sourceT wiredS wiredT
    let order := (sources.map BookSource.provider).dedup
    have iterates : (byProvider sources).IterationOrder order :=
      ⟨List.nodup_dedup _, fun p => by rw [List.mem_dedup, List.mem_map, byProvider_isSome]⟩
    have few := (started_iff once order).mp (started order iterates order (List.prefix_refl _))
    have among : ∀ s ∈ sources, s.provider ∈ Provider.wired →
        s.provider ∈ order.filter (· ∈ Provider.wired) :=
      fun s source wired => List.mem_filter.mpr ⟨(iterates.2 _).mpr
        ((byProvider_isSome sources _).mpr ⟨s, source, rfl⟩), decide_eq_true wired⟩
    have memberS := among s sourceS wiredS
    have memberT := among t sourceT wiredT
    obtain ⟨only, one⟩ := List.length_eq_one_iff.mp
      (Nat.le_antisymm few (List.length_pos_of_mem memberS))
    rw [one, List.mem_singleton] at memberS memberT
    exact memberS.trans memberT.symm
  · intro single order iterates polled before
    exact (started_iff once polled).mpr (few_wired single iterates before)

/-! The crate, as it keeps one handler. -/

def oneHandler : Ctrlc where
  State := Option Handler
  initial := none
  setHandler := fun state handler =>
    match state with
    | none => .ok (some handler)
    | some _ => .error ()
  handler := id

theorem oneHandler_setsOnce : oneHandler.SetsOnce where
  first := fun handler => ⟨some handler, rfl, rfl⟩
  later := fun _ _ set _ => by cases set; rfl

theorem streams_start_two_symbols :
    Started [.binance] (firstPolls oneHandler [.binance]) :=
  (streams_start_iff oneHandler_setsOnce [⟨.binance, "BTCUSDT"⟩, ⟨.binance, "ETHUSDT"⟩]).mpr
    (by decide) [.binance] ⟨by decide, fun p => by cases p <;> decide⟩ _ (List.prefix_refl _)

theorem second_provider_panics :
    (byProvider [⟨.binance, "BTCUSDT"⟩, ⟨.binanceUsdM, "BTCUSDT"⟩]).IterationOrder
        [.binance, .binanceUsdM] ∧
      (firstPolls oneHandler [.binance, .binanceUsdM]).panicked = true ∧
      (firstPolls oneHandler [.binance, .binanceUsdM]).running = [] ∧
      ¬ Started [.binance, .binanceUsdM] (firstPolls oneHandler [.binance, .binanceUsdM]) :=
  ⟨⟨by decide, fun p => by cases p <;> decide⟩, rfl, rfl, fun started => by cases started.noPanic⟩

end Process

end Trolly.Monitor
