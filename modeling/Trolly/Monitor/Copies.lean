import Trolly.Lib.LeftRight
import Trolly.Monitor.OrderBook

/-! The two copies behind one live book. Every update is absorbed by either copy, a publish
apart; what readers see is the updates applied in order, and the copies never decide
differently about an update. -/
namespace Trolly.Monitor

open LeftRight

variable {P Q : Type}

namespace Lob

def absorb (lob : Lob P Q) : Absorb lob.Book (Operations lob) := ⟨lob.absorbFirst, lob.extend⟩

/-- Whether a copy skips the operation, where that is a choice. -/
def decision (lob : Lob P Q) (self : lob.Book) : Operations lob → Option Bool
  | .update update => some (lob.skipUpdate update (lob.updateId self))
  | .initializeBook _ => none

/-- The choices made when the updates are applied in order to one book. -/
def decisions (lob : Lob P Q) : lob.Book → List (DepthUpdate P Q) → List Bool
  | _, [] => []
  | book, update :: rest =>
    lob.skipUpdate update (lob.updateId book) :: decisions lob (lob.absorbUpdate book update) rest

end Lob

namespace OrderBook

variable {lob : Lob P Q} {T : Type}

/-- `build`, once the snapshot is fetched: it is absorbed before anyone reads. -/
def build (a : Absorb T (Operations lob)) (default : T) (snapshot : lob.Book) :
    Option (WriteHandle T (Operations lob)) :=
  ((WriteHandle.new default).append a (.initializeBook snapshot)).bind (WriteHandle.publish a)

def handleUpdate (a : Absorb T (Operations lob)) (w : WriteHandle T (Operations lob))
    (update : DepthUpdate P Q) : Option (WriteHandle T (Operations lob)) :=
  (w.append a (.update update)).bind (WriteHandle.publish a)

def run (a : Absorb T (Operations lob)) (default : T) (snapshot : lob.Book)
    (updates : List (DepthUpdate P Q)) : Option (WriteHandle T (Operations lob)) :=
  (build a default snapshot).bind (fun w => updates.foldlM (handleUpdate a) w)

abbrev Copy (lob : Lob P Q) := lob.Book × List Bool

/-- The same pair, whose copies note what they decide. -/
def journaled (lob : Lob P Q) : Absorb (Copy lob) (Operations lob) :=
  WriteHandle.noting lob.absorb lob.decision

def absorbNoted (copy : Copy lob) : Operations lob → Copy lob
  | .update update =>
    (lob.absorbUpdate copy.1 update, copy.2 ++ [lob.skipUpdate update (lob.updateId copy.1)])
  | .initializeBook _ => copy

def IsUpdate (op : Operations lob) : Prop := ∃ update, op = .update update

theorem journaled_absorbs (op : Operations lob) (isUpdate : IsUpdate op) (self other : Copy lob) :
    (journaled lob).absorbFirst self op other = some (absorbNoted self op) := by
  obtain ⟨update, rfl⟩ := isUpdate
  rfl

/-- Everything logged is published, and the copies are a publish apart. -/
structure InStep (copy : Copy lob) (w : WriteHandle (Copy lob) (Operations lob)) : Prop where
  lags : WriteHandle.Lags (journaled lob) absorbNoted w
  updates : ∀ op ∈ w.oplog, IsUpdate op
  published : w.swapIndex = w.oplog.length
  reading : w.reading = copy

theorem build_inStep (extending : lob.ExtendsDefault) (snapshot : lob.Book) :
    ∃ w, build (journaled lob) (lob.default, []) snapshot = some w ∧ InStep (snapshot, []) w ∧
      w.writing.2 = [] := by
  let built : WriteHandle (Copy lob) (Operations lob) :=
    ⟨(snapshot, []), (lob.default, []), [], 0, false, true⟩
  have absorbed : lob.absorb.absorbFirst lob.default (.initializeBook snapshot) lob.default =
      some snapshot := Lob.absorbFirst_initializeBook extending snapshot
  refine ⟨built, ?_, ⟨⟨rfl, Nat.le_refl _, ?_⟩, by simp [built], rfl, rfl⟩, rfl⟩
  · simp [build, WriteHandle.new, WriteHandle.append, journaled, WriteHandle.noting, absorbed,
      Lob.decision, WriteHandle.publish, built]
  · -- the second publish extends the default copy by what readers see
    have synced : lob.extend lob.default snapshot = snapshot := extending snapshot
    simp [built, WriteHandle.stale, journaled, WriteHandle.noting, Lob.absorb, synced]

/-- The step: the update goes to the copy that lagged, together with the one it lagged by,
and the copy that readers saw lags now. -/
theorem handleUpdate_inStep {copy : Copy lob} {w : WriteHandle (Copy lob) (Operations lob)}
    (inStep : InStep copy w) (update : DepthUpdate P Q) :
    ∃ next, handleUpdate (journaled lob) w update = some next ∧
      InStep (absorbNoted copy (.update update)) next ∧ next.writing = copy := by
  obtain ⟨appended, lags⟩ := inStep.lags.append (.update update)
  have plain : ∀ op ∈ w.oplog ++ [.update update], IsUpdate op := by
    intro op member
    rcases List.mem_append.mp member with before | last
    · exact inStep.updates op before
    · exact ⟨update, List.mem_singleton.mp last⟩
  have unpublished : (w.oplog ++ [Operations.update update]).drop w.swapIndex =
      [Operations.update update] := by rw [inStep.published, List.drop_left]
  have published := lags.publish IsUpdate journaled_absorbs plain
  rw [unpublished] at published
  refine ⟨_, by rw [handleUpdate, appended]; exact published, ?_, inStep.reading⟩
  rw [← inStep.reading]
  refine ⟨WriteHandle.lags_published w.reading [Operations.update update], ?_, rfl, rfl⟩
  intro op member
  exact ⟨update, List.mem_singleton.mp member⟩

theorem decisions_snoc (book : lob.Book) (updates : List (DepthUpdate P Q))
    (update : DepthUpdate P Q) :
    lob.decisions book (updates ++ [update]) = lob.decisions book updates ++
      [lob.skipUpdate update (lob.updateId (updates.foldl lob.absorbUpdate book))] := by
  induction updates generalizing book with
  | nil => rfl
  | cons first rest ih => simp [Lob.decisions, ih]

theorem run_inStep (extending : lob.ExtendsDefault) (snapshot : lob.Book)
    (updates : List (DepthUpdate P Q)) :
    ∃ w, run (journaled lob) (lob.default, []) snapshot updates = some w ∧
      InStep (updates.foldl lob.absorbUpdate snapshot, lob.decisions snapshot updates) w ∧
      w.writing.2 = lob.decisions snapshot updates.dropLast ∧
      (updates ≠ [] → w.writing.1 = updates.dropLast.foldl lob.absorbUpdate snapshot) := by
  induction updates using List.reverseRecOn with
  | nil =>
    obtain ⟨w, built, inStep, journal⟩ := build_inStep extending snapshot
    exact ⟨w, by simp [run, built], inStep, journal, fun nonempty => absurd rfl nonempty⟩
  | append_singleton updates update ih =>
    obtain ⟨w, ran, inStep, _⟩ := ih
    obtain ⟨next, handled, nextInStep, writing⟩ := handleUpdate_inStep inStep update
    simp only [absorbNoted] at nextInStep
    rw [← decisions_snoc, ← List.foldl_concat lob.absorbUpdate] at nextInStep
    refine ⟨next, ?_, nextInStep, by rw [writing, List.dropLast_concat],
      fun _ => by rw [writing, List.dropLast_concat]⟩
    unfold run at ran ⊢
    cases built : build (journaled lob) (lob.default, []) snapshot with
    | none => simp [built] at ran
    | some start =>
      rw [built, Option.bind_some] at ran
      simp [List.foldlM_append, ran, handled]

/-! Journals are only watched: without them the pair does the same. -/

theorem forget_handleUpdate (w : WriteHandle (Copy lob) (Operations lob))
    (update : DepthUpdate P Q) :
    (handleUpdate (journaled lob) w update).map WriteHandle.forget =
      handleUpdate lob.absorb w.forget update := by
  have appended := WriteHandle.forget_append lob.absorb lob.decision w (.update update)
  unfold handleUpdate journaled
  rw [← appended]
  cases w.append (WriteHandle.noting lob.absorb lob.decision) (.update update) with
  | none => rfl
  | some next => exact WriteHandle.forget_publish lob.absorb lob.decision next

theorem forget_build (snapshot : lob.Book) :
    (build (journaled lob) (lob.default, []) snapshot).map WriteHandle.forget =
      build lob.absorb lob.default snapshot := by
  have appended := WriteHandle.forget_append lob.absorb lob.decision
    (WriteHandle.new (lob.default, [])) (.initializeBook snapshot)
  unfold build journaled
  rw [show WriteHandle.new lob.default = (WriteHandle.new (lob.default, ([] : List Bool)) :
    WriteHandle (Copy lob) (Operations lob)).forget from rfl, ← appended]
  cases (WriteHandle.new (lob.default, [])).append (WriteHandle.noting lob.absorb lob.decision)
    (.initializeBook snapshot) with
  | none => rfl
  | some next => exact WriteHandle.forget_publish lob.absorb lob.decision next

theorem forget_foldlM (updates : List (DepthUpdate P Q))
    (w : WriteHandle (Copy lob) (Operations lob)) :
    (updates.foldlM (handleUpdate (journaled lob)) w).map WriteHandle.forget =
      updates.foldlM (handleUpdate lob.absorb) w.forget := by
  induction updates generalizing w with
  | nil => rfl
  | cons update rest ih =>
    rw [List.foldlM_cons, List.foldlM_cons, ← forget_handleUpdate]
    cases handleUpdate (journaled lob) w update with
    | none => rfl
    | some next => exact ih next

theorem forget_run (snapshot : lob.Book) (updates : List (DepthUpdate P Q)) :
    (run (journaled lob) (lob.default, []) snapshot updates).map WriteHandle.forget =
      run lob.absorb lob.default snapshot updates := by
  unfold run
  rw [← forget_build]
  cases build (journaled lob) (lob.default, []) snapshot with
  | none => rfl
  | some w => exact forget_foldlM updates w

/-- For every snapshot and every list of updates: no assertion fires; readers see the updates
applied in order to the snapshot; and the other copy is one publish behind them, with the
same choice about every update it has absorbed as one book would make. -/
theorem copies_agree (extending : lob.ExtendsDefault) (snapshot : lob.Book)
    (updates : List (DepthUpdate P Q)) :
    ∃ w, run (journaled lob) (lob.default, []) snapshot updates = some w ∧
      run lob.absorb lob.default snapshot updates = some w.forget ∧
      w.reading = (updates.foldl lob.absorbUpdate snapshot, lob.decisions snapshot updates) ∧
      w.writing.2 = lob.decisions snapshot updates.dropLast ∧
      (updates ≠ [] → w.writing.1 = updates.dropLast.foldl lob.absorbUpdate snapshot) := by
  obtain ⟨w, ran, inStep, journal, lagging⟩ := run_inStep extending snapshot updates
  refine ⟨w, ran, ?_, inStep.reading, journal, lagging⟩
  rw [← forget_run, ran, Option.map_some]

/-- A snapshot at change 1, an update after it and a stale one. -/
theorem copies_agree_two_updates :
    let lob := Lob.levelBooks Nat Nat
    let snapshot : lob.Book := ⟨1, [((.bid, 1), 1)]⟩
    let updates := [Lob.bidUpdate 2 3 [(1, 5)], Lob.bidUpdate 2 2 [(1, 4)]]
    ∃ w, run (journaled lob) (lob.default, []) snapshot updates = some w ∧
      run lob.absorb lob.default snapshot updates = some w.forget ∧
      w.reading = ((⟨3, [((.bid, 1), 1), ((.bid, 1), 5)]⟩ : LevelBook Nat Nat), [false, true]) ∧
      w.writing.2 = [false] := by
  intro lob snapshot updates
  obtain ⟨w, ran, forgotten, reading, journal, _⟩ :=
    copies_agree (Lob.levelBooks_extendsDefault Nat Nat) snapshot updates
  exact ⟨w, ran, forgotten, reading, journal⟩

end OrderBook

end Trolly.Monitor
