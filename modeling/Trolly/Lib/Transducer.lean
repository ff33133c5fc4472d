import Mathlib.Data.List.Forall2
import Mathlib.Data.List.Basic

/-! A machine that answers each input with a burst of outputs, in front of a sink that takes
outputs one by one and may refuse one; the rest of a burst is then dropped. The machine never
hears of the sink, so its own run is the same whatever is refused. -/
namespace Transducer

universe u v w x y

variable {S : Type u} {α : Type v} {β : Type w} {E : Type x} {ε : Type y}

section Machine

variable (step : S → α → S × List β)

/-- The state after a run of the machine alone. -/
def after (s : S) (inputs : List α) : S := inputs.foldl (fun s a => (step s a).1) s

/-- The bursts of a run of the machine alone, one for each input. -/
def bursts : S → List α → List (List β)
  | _, [] => []
  | s, a :: rest => (step s a).2 :: bursts (step s a).1 rest

end Machine

section Sink

variable (put : E → β → E × Except ε Unit)

/-- The sink after it was handed some outputs, whatever it said to each. -/
def absorbed (e : E) (outputs : List β) : E := outputs.foldl (fun e b => (put e b).1) e

/-- Those of the outputs handed over that the sink takes. -/
def accepted : E → List β → List β
  | _, [] => []
  | e, b :: rest =>
    match put e b with
    | (e, .ok ()) => b :: accepted e rest
    | (e, .error _) => accepted e rest

/-- Hand over a burst, up to the first output that is refused. -/
def feed : E → List β → E × Except ε Unit
  | e, [] => (e, .ok ())
  | e, b :: rest =>
    match put e b with
    | (e, .ok ()) => feed e rest
    | (e, .error error) => (e, .error error)

/-- All outputs of a list are taken, one after the other. -/
def Taken (e : E) (outputs : List β) : Prop :=
  ∀ pre b post, outputs = pre ++ b :: post → (put (absorbed put e pre) b).2 = .ok ()

/-- What the sink is handed of a burst and what comes of it: the whole burst is taken, or its
outputs are up to one that is refused. -/
inductive Feeds (e : E) (burst : List β) : List β → Except ε Unit → Prop
  | all : Taken put e burst → Feeds e burst burst (.ok ())
  | upTo (pre : List β) (b : β) (post : List β) (error : ε) : burst = pre ++ b :: post →
      Taken put e pre → (put (absorbed put e pre) b).2 = .error error →
      Feeds e burst (pre ++ [b]) (.error error)

variable {put}

theorem absorbed_append (e : E) (xs ys : List β) :
    absorbed put e (xs ++ ys) = absorbed put (absorbed put e xs) ys :=
  List.foldl_append

variable (put) in
theorem accepted_ok {e : E} {b : β} (taken : (put e b).2 = .ok ()) (rest : List β) :
    accepted put e (b :: rest) = b :: accepted put (put e b).1 rest := by
  rcases said : put e b with ⟨next, verdict⟩
  rw [said] at taken
  cases taken
  simp only [accepted, said]

variable (put) in
theorem accepted_error {e : E} {b : β} (refused : (put e b).2 ≠ .ok ()) (rest : List β) :
    accepted put e (b :: rest) = accepted put (put e b).1 rest := by
  rcases said : put e b with ⟨next, verdict⟩
  rw [said] at refused
  cases verdict with
  | ok => exact absurd rfl refused
  | error error => simp only [accepted, said]

theorem taken_cons {e : E} {b : β} {rest : List β} (first : (put e b).2 = .ok ())
    (later : Taken put (put e b).1 rest) : Taken put e (b :: rest) := by
  intro pre c post split
  cases pre with
  | nil =>
    cases split
    exact first
  | cons head tail =>
    cases split
    exact later tail c post rfl

variable (put) in
theorem feed_feeds (e : E) (burst : List β) :
    ∃ handed, Feeds put e burst handed (feed put e burst).2 ∧
      (feed put e burst).1 = absorbed put e handed := by
  induction burst generalizing e with
  | nil =>
    refine ⟨[], .all ?_, rfl⟩
    intro pre b post split
    cases pre <;> cases split
  | cons b rest ih =>
    rcases said : put e b with ⟨next, verdict⟩
    cases verdict with
    | error error =>
      have refused : (put e b).2 = .error error := by rw [said]
      refine ⟨[b], ?_, ?_⟩
      · rw [feed, said]
        refine .upTo [] b rest error rfl ?_ refused
        intro pre c post split
        cases pre <;> cases split
      · rw [feed, said]
        exact (congrArg Prod.fst said).symm
    | ok =>
      obtain ⟨handed, feeds, absorbs⟩ := ih next
      have first : (put e b).2 = .ok () := by rw [said]
      have moved : (put e b).1 = next := by rw [said]
      refine ⟨b :: handed, ?_, ?_⟩
      · rw [feed, said]
        generalize outcome : (feed put next rest).2 = verdict at feeds ⊢
        subst moved
        cases feeds with
        | all taken => exact .all (taken_cons first taken)
        | upTo pre c post error split taken refused =>
          rw [← List.cons_append]
          exact .upTo (b :: pre) c post error (by rw [split, List.cons_append])
            (taken_cons first taken) refused
      · rw [feed, said]
        refine absorbs.trans ?_
        rw [← moved]
        rfl

/-- What is handed over is a front of the burst, and all of it when nothing is refused. -/
theorem Feeds.front {e : E} {burst handed : List β} {outcome : Except ε Unit}
    (feeds : Feeds put e burst handed outcome) : handed <+: burst := by
  cases feeds with
  | all => exact List.prefix_rfl
  | upTo pre b post error split => exact ⟨post, by rw [split, List.append_assoc]; rfl⟩

end Sink

section Coupled

variable (step : S → α → S × List β) (put : E → β → E × Except ε Unit)

/-- One input of the machine with the sink behind it. -/
def couple (state : S × E) (input : α) : (S × E) × Except ε Unit :=
  let answer := step state.1 input
  let fed := feed put state.2 answer.2
  ((answer.1, fed.1), fed.2)

/-- A run of both, with the outcome of each input; an outcome stops nothing. -/
def run (state : S × E) : List α → (S × E) × List (Except ε Unit)
  | [] => (state, [])
  | a :: rest =>
    let next := couple step put state a
    let last := run next.1 rest
    (last.1, next.2 :: last.2)

/-- How a run feeds its bursts to the sink, input by input. -/
inductive FeedsAll : E → List (List β) → List (List β) → List (Except ε Unit) → Prop
  | nil (e : E) : FeedsAll e [] [] []
  | cons {e : E} {burst handed : List β} {outcome : Except ε Unit} {bursts handeds outcomes} :
      Feeds put e burst handed outcome →
      FeedsAll (absorbed put e handed) bursts handeds outcomes →
      FeedsAll e (burst :: bursts) (handed :: handeds) (outcome :: outcomes)

/-- The machine runs as if it were alone, and the sink has been handed a front of each burst,
input after input. -/
theorem run_feeds (s : S) (e : E) (inputs : List α) :
    (run step put (s, e) inputs).1.1 = after step s inputs ∧
      ∃ handed, FeedsAll put e (bursts step s inputs) handed (run step put (s, e) inputs).2 ∧
        (run step put (s, e) inputs).1.2 = absorbed put e handed.flatten := by
  induction inputs generalizing s e with
  | nil => exact ⟨rfl, [], .nil e, rfl⟩
  | cons a rest ih =>
    obtain ⟨handed, feeds, absorbs⟩ := feed_feeds put e (step s a).2
    obtain ⟨alone, later, feedsLater, absorbsLater⟩ := ih (step s a).1 (feed put e (step s a).2).1
    refine ⟨alone, handed :: later, .cons feeds ?_, ?_⟩
    · rw [← absorbs]
      exact feedsLater
    · rw [List.flatten_cons, absorbed_append, ← absorbs]
      exact absorbsLater

variable {step put}

theorem FeedsAll.sublist {e : E} {bursts handed : List (List β)} {outcomes : List (Except ε Unit)}
    (feeds : FeedsAll put e bursts handed outcomes) : handed.flatten.Sublist bursts.flatten := by
  induction feeds with
  | nil => exact .slnil
  | cons first _ ih => exact first.front.sublist.append ih

theorem taken_append {e : E} {xs ys : List β} (taken : Taken put e (xs ++ ys)) :
    Taken put e xs ∧ Taken put (absorbed put e xs) ys := by
  refine ⟨fun pre b post split => ?_, fun pre b post split => ?_⟩
  · exact taken pre b (post ++ ys) (by rw [split, List.append_assoc, List.cons_append])
  · rw [← absorbed_append]
    exact taken (xs ++ pre) b post (by rw [split, List.append_assoc])

/-- When nothing that is handed over is refused, everything is handed over. -/
theorem FeedsAll.all_handed {e : E} {bursts handed : List (List β)}
    {outcomes : List (Except ε Unit)} (feeds : FeedsAll put e bursts handed outcomes)
    (taken : Taken put e handed.flatten) : handed = bursts := by
  induction feeds with
  | nil => rfl
  | cons first later ih =>
    rw [List.flatten_cons] at taken
    obtain ⟨own, rest⟩ := taken_append taken
    cases first with
    | all => rw [ih rest]
    | upTo pre b post error split before refused =>
      have accepted := own pre b [] rfl
      rw [refused] at accepted
      cases accepted

end Coupled

section Twins

variable {E' : Type x} {ε' : Type y} {put : E → β → E × Except ε Unit}
  {put' : E' → β → E' × Except ε' Unit} {Alike Parted : E → E' → Prop}

/-- Two sinks for the same outputs: while they are alike they take and refuse the same, and once
they are parted each goes its own way. -/
structure Twins (put : E → β → E × Except ε Unit) (put' : E' → β → E' × Except ε' Unit)
    (Alike Parted : E → E' → Prop) : Prop where
  together : ∀ e e' b, Alike e e' →
    (Alike (put e b).1 (put' e' b).1 ∧ ((put e b).2 = .ok () ↔ (put' e' b).2 = .ok ())) ∨
      Parted (put e b).1 (put' e' b).1
  first : ∀ e e' b, Parted e e' → Parted (put e b).1 e'
  second : ∀ e e' b, Parted e e' → Parted e (put' e' b).1

theorem absorbed_preserves {Kept : E → Prop} (kept : ∀ e b, Kept e → Kept (put e b).1) (e : E)
    (outputs : List β) (start : Kept e) : Kept (absorbed put e outputs) := by
  induction outputs generalizing e with
  | nil => exact start
  | cons b rest ih => exact ih (put e b).1 (kept e b start)

theorem feed_preserves {Kept : E → Prop} (kept : ∀ e b, Kept e → Kept (put e b).1) (e : E)
    (burst : List β) (start : Kept e) : Kept (feed put e burst).1 := by
  obtain ⟨handed, -, absorbs⟩ := feed_feeds put e burst
  rw [absorbs]
  exact absorbed_preserves kept e handed start

theorem Twins.feed_parted (twins : Twins put put' Alike Parted) (e : E) (e' : E')
    (burst burst' : List β) (parted : Parted e e') :
    Parted (feed put e burst).1 (feed put' e' burst').1 := by
  have own : Parted (feed put e burst).1 e' :=
    feed_preserves (fun e b => twins.first e e' b) e burst parted
  exact feed_preserves (fun e' b => twins.second _ e' b) e' burst' own

theorem Twins.fed (twins : Twins put put' Alike Parted) (e : E) (e' : E') (burst : List β)
    (alike : Alike e e') :
    Alike (feed put e burst).1 (feed put' e' burst).1 ∨
      Parted (feed put e burst).1 (feed put' e' burst).1 := by
  induction burst generalizing e e' with
  | nil => exact .inl alike
  | cons b rest ih =>
    have moved := twins.together e e' b alike
    rcases said : put e b with ⟨next, verdict⟩
    rcases said' : put' e' b with ⟨next', verdict'⟩
    simp only [said, said'] at moved
    cases verdict with
    | ok =>
      cases verdict' with
      | ok =>
        simp only [feed, said, said']
        rcases moved with ⟨still, -⟩ | parted
        · exact ih next next' still
        · exact .inr (twins.feed_parted next next' rest rest parted)
      | error error' =>
        simp only [feed, said, said']
        rcases moved with ⟨-, same⟩ | parted
        · cases same.1 rfl
        · exact .inr (twins.feed_parted next next' rest [] parted)
    | error error =>
      cases verdict' with
      | ok =>
        simp only [feed, said, said']
        rcases moved with ⟨-, same⟩ | parted
        · cases same.2 rfl
        · exact .inr (twins.feed_parted next next' [] rest parted)
      | error error' =>
        simp only [feed, said, said']
        exact moved.imp And.left id

/-- Behind one machine, two such sinks end a run alike or parted. -/
theorem Twins.ran (twins : Twins put put' Alike Parted) (step : S → α → S × List β) (s : S)
    (e : E) (e' : E') (inputs : List α) (start : Alike e e' ∨ Parted e e') :
    Alike (run step put (s, e) inputs).1.2 (run step put' (s, e') inputs).1.2 ∨
      Parted (run step put (s, e) inputs).1.2 (run step put' (s, e') inputs).1.2 := by
  induction inputs generalizing s e e' with
  | nil => exact start
  | cons a rest ih =>
    refine ih (step s a).1 (feed put e (step s a).2).1 (feed put' e' (step s a).2).1 ?_
    rcases start with alike | parted
    · exact twins.fed e e' (step s a).2 alike
    · exact .inr (twins.feed_parted e e' (step s a).2 (step s a).2 parted)

end Twins

end Transducer
