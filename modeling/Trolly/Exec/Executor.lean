import Trolly.Exec.Orders

/-! How far the executor gets: the orders it has posted are a prefix of the orders enqueued,
and it stops at the first answer that is a failure. -/
namespace Trolly.Exec

open Strategy Pipeline

variable {Request Response : Type} (api : OrderApi Request Response) (client : OrderClient)
  (exchange : Exchange)

/-- The client reads the answer to a post as an acknowledgement. -/
def Acknowledged (call : Nat) : Prop :=
  ∃ response, readAnswer api (exchange.answers call) = .ok response

/-- The posts of the orders of a list, each stamped with the clock of its placement. -/
def postsOf (requests : List Request) : List (Except OrderBuilderError FormPost) :=
  requests.mapIdx (fun call request => orderPost api client exchange (exchange.clock call) request)

/-- An accepted command never fails in the builder. -/
def Buildable : Prop :=
  ∀ message request, api.placeOrderFromOutbound message = .ok request →
    ∃ params, api.buildOrderParams request = .ok params

structure Progress (sent : List Request) (s : Pipeline Request) : Prop where
  built : ∀ request ∈ sent, ∃ params, api.buildOrderParams request = .ok params
  within : s.calls ≤ sent.length
  waiting : s.queue = sent.drop s.calls
  posted : s.posts.map .ok = postsOf api client exchange (sent.take s.calls)
  passed : ∀ call, call + 1 < s.calls → Acknowledged api exchange call
  running : s.result = none → ∀ call, call < s.calls → Acknowledged api exchange call
  stopped : s.result ≠ none → 0 < s.calls ∧ ¬Acknowledged api exchange (s.calls - 1)

variable {api client exchange} {sent : List Request} {s : Pipeline Request}

theorem progress_start : Progress api client exchange [] (start : Pipeline Request) where
  built := by simp
  within := Nat.le_refl _
  waiting := rfl
  posted := rfl
  passed := by simp [start]
  running := by simp [start]
  stopped := by simp [start]

theorem Progress.push (progress : Progress api client exchange sent s) {request : Request}
    (built : ∃ params, api.buildOrderParams request = .ok params) :
    Progress api client exchange (sent ++ [request]) { s with queue := s.queue ++ [request] } where
  built := by
    intro other member
    rcases List.mem_append.1 member with old | new
    · exact progress.built other old
    · rw [List.mem_singleton.1 new]
      exact built
  within := by
    have within := progress.within
    rw [List.length_append]
    exact Nat.le_add_right_of_le within
  waiting := by
    rw [List.drop_append_of_le_length progress.within, ← progress.waiting]
  posted := by
    rw [List.take_append_of_le_length progress.within]
    exact progress.posted
  passed := progress.passed
  running := progress.running
  stopped := progress.stopped

theorem acknowledged_iff {call : Nat} : Acknowledged api exchange call ↔
    propagated (readAnswer api (exchange.answers call)) = none := by
  unfold Acknowledged
  cases readAnswer api (exchange.answers call) <;> simp [propagated]

theorem turn_idle (idle : s.result ≠ none ∨ s.queue = []) : s.turn api client exchange = s := by
  unfold turn
  split
  · rename_i running waiting
    rcases idle with stopped | empty
    · exact absurd running stopped
    · rw [empty] at waiting
      cases waiting
  · rfl

theorem turn_next {request : Request} {rest : List Request} {post : FormPost}
    (running : s.result = none) (waiting : s.queue = request :: rest)
    (posting : orderPost api client exchange (exchange.clock s.calls) request = .ok post) :
    s.turn api client exchange =
      ⟨rest, s.posts ++ [post], s.calls + 1,
        propagated (readAnswer api (exchange.answers s.calls))⟩ := by
  simp only [Pipeline.turn, running, waiting, placeOrder, posting, Option.toList_some]

theorem Progress.next (progress : Progress api client exchange sent s) {request : Request}
    {rest : List Request} (waiting : s.queue = request :: rest) :
    s.calls < sent.length ∧ sent.take (s.calls + 1) = sent.take s.calls ++ [request] ∧
      sent.drop (s.calls + 1) = rest := by
  have dropped := progress.waiting
  rw [waiting] at dropped
  have inside : s.calls < sent.length := by
    by_contra short
    rw [List.drop_eq_nil_of_le (by omega)] at dropped
    cases dropped
  rw [List.drop_eq_getElem_cons inside, List.cons.injEq] at dropped
  exact ⟨inside, by rw [dropped.1, List.take_succ_eq_append_getElem inside], dropped.2.symm⟩

theorem Progress.turn (progress : Progress api client exchange sent s) :
    Progress api client exchange sent (s.turn api client exchange) := by
  by_cases idle : s.result ≠ none ∨ s.queue = []
  · rw [turn_idle idle]
    exact progress
  · rw [not_or, not_not] at idle
    obtain ⟨running, nonempty⟩ := idle
    obtain ⟨request, rest, waiting⟩ := List.exists_cons_of_ne_nil nonempty
    obtain ⟨inside, taken, dropped⟩ := progress.next waiting
    obtain ⟨params, accepted⟩ := progress.built request (by
      rw [← List.take_append_drop (s.calls + 1) sent, taken]
      simp)
    obtain ⟨post, posting⟩ :
        ∃ post, orderPost api client exchange (exchange.clock s.calls) request = .ok post :=
      ⟨_, by rw [orderPost, buildSignedFormParams, accepted]; rfl⟩
    have posted := progress.posted
    have answered := progress.running running
    rw [turn_next running waiting posting]
    refine ⟨progress.built, inside, dropped.symm, ?_, ?_, ?_, ?_⟩
    · rw [List.map_append, posted, taken, postsOf, postsOf, List.mapIdx_concat,
        List.length_take_of_le progress.within, posting]
      rfl
    · intro call earlier
      exact answered call (by simpa using earlier)
    · intro continues call earlier
      rcases Nat.lt_succ_iff_lt_or_eq.1 earlier with before | rfl
      · exact answered call before
      · exact acknowledged_iff.2 continues
    · intro returned
      exact ⟨Nat.succ_pos _, fun read => returned (acknowledged_iff.1 read)⟩

theorem Progress.step (buildable : Buildable api) (progress : Progress api client exchange sent s)
    (action : Action) : Progress api client exchange (sent ++ (s.taken api action).toList)
      (s.step api client exchange action) := by
  cases action with
  | turn =>
    rw [taken, Option.toList_none, List.append_nil]
    exact progress.turn
  | dispatch message =>
    rw [taken, Pipeline.step, dispatch]
    cases converted : api.placeOrderFromOutbound message with
    | error error => simpa using progress
    | ok request =>
      by_cases returned : s.result.isSome
      · simpa [returned] using progress
      · simpa [returned, converted, Except.toOption] using
          progress.push (buildable message request converted)

theorem Progress.run (buildable : Buildable api) (progress : Progress api client exchange sent s)
    (actions : List Action) :
    Progress api client exchange (sent ++ s.enqueued api client exchange actions)
      (s.run api client exchange actions) := by
  induction actions generalizing sent s with
  | nil => simpa [enqueued, Pipeline.run] using progress
  | cons action rest ih =>
    have next := ih (progress.step buildable action)
    rw [List.append_assoc] at next
    exact next

theorem Progress.turns (progress : Progress api client exchange sent s) (count : Nat) :
    Progress api client exchange sent ((Pipeline.turn api client exchange)^[count] s) := by
  induction count generalizing s with
  | zero => exact progress
  | succ count ih => exact ih progress.turn

theorem turns_done (count : Nat) (enough : s.queue.length ≤ count) :
    ((Pipeline.turn api client exchange)^[count] s).result ≠ none ∨
      ((Pipeline.turn api client exchange)^[count] s).queue = [] := by
  induction count generalizing s with
  | zero => exact .inr (List.length_eq_zero_iff.1 (Nat.le_zero.1 enough))
  | succ count ih =>
    by_cases idle : s.result ≠ none ∨ s.queue = []
    · rw [Function.iterate_fixed (turn_idle idle)]
      exact idle
    · rw [not_or, not_not] at idle
      obtain ⟨request, rest, waiting⟩ := List.exists_cons_of_ne_nil idle.2
      refine ih ?_
      rw [waiting, List.length_cons] at enough
      simp only [Pipeline.turn, idle.1, waiting]
      omega

theorem Progress.all_posted_iff (progress : Progress api client exchange sent s)
    (done : s.result ≠ none ∨ s.queue = []) :
    s.posts.map .ok = postsOf api client exchange sent ↔
      ∀ call, call + 1 < sent.length → Acknowledged api exchange call := by
  constructor
  · intro all call earlier
    have lengths := congrArg List.length (progress.posted.symm.trans all)
    have within := progress.within
    simp only [postsOf, List.length_mapIdx, List.length_take] at lengths
    exact progress.passed call (by omega)
  · intro answered
    have reached : sent.length ≤ s.calls := by
      rcases done with returned | empty
      · obtain ⟨some, refused⟩ := progress.stopped returned
        by_contra before
        exact refused (answered (s.calls - 1) (by omega))
      · have waiting := progress.waiting
        rw [empty] at waiting
        exact List.drop_eq_nil_iff.1 waiting.symm
    rw [progress.posted, List.take_of_length_le reached]

/-- Whatever the order of dispatches and turns, the orders enqueued are all posted, once and in
order, exactly when no order with another one behind it is answered by a failure. -/
theorem drain_posts_iff (buildable : Buildable api) (client : OrderClient) (exchange : Exchange)
    (actions : List Action) :
    (((start.run api client exchange actions).drain api client exchange).posts.map .ok =
        postsOf api client exchange (start.enqueued api client exchange actions)) ↔
      ∀ call, call + 1 < (start.enqueued api client exchange actions).length →
        Acknowledged api exchange call := by
  have reached : Progress api client exchange (start.enqueued api client exchange actions)
      (start.run api client exchange actions) := progress_start.run buildable actions
  have drained := reached.turns (start.run api client exchange actions).queue.length
  exact drained.all_posted_iff (turns_done _ (Nat.le_refl _))

end Trolly.Exec
