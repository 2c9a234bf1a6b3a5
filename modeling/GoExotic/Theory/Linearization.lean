/-
Module: GoExotic.Theory.Linearization
Purpose: Concurrent calls of an object with atomic sections. A call begins with an operation, takes effect
  once in a section that nobody else can enter, and returns the answer the section gave. Whatever the
  interleaving, the calls in the order of their sections are a serial use of the object: the serial calls
  give the same answers and leave the same object, and a call that returned before another began is
  before it in the order.
Trusted boundary: none
Main exports: Event, Action, Run, Linearizes, Run.linearizes, Run.object_eq, Linearizes.restrict
-/
import GoExotic.Theory.Runs
import Mathlib.Data.List.Nodup
import Mathlib.Logic.Function.Basic

namespace Linearization

variable {ω κ ρ σ : Type}

/-! ### Runs -/

/-- What an observer of the calls sees. Calls are told apart by a number. -/
inductive Event (ω ρ : Type) where
  | invoke (id : Nat) (op : ω)
  | respond (id : Nat) (answer : ρ)
deriving DecidableEq, Repr

/-- The call an event is of. -/
def Event.id : Event ω ρ → Nat
  | .invoke id _ => id
  | .respond id _ => id

/-- What the calls do: begin, take effect as a serial call, and return. -/
inductive Action (ω κ ρ : Type) where
  | invoke (id : Nat) (op : ω)
  | take (id : Nat) (call : κ)
  | respond (id : Nat) (answer : ρ)

/-- How an observer sees an action. -/
def Action.event : Action ω κ ρ → Option (Event ω ρ)
  | .invoke id op => some (.invoke id op)
  | .take _ _ => none
  | .respond id answer => some (.respond id answer)

/-- The serial call an action is, if it is one. -/
def Action.taken : Action ω κ ρ → Option (Nat × κ)
  | .take id call => some (id, call)
  | _ => none

/-- How far a call has come. -/
inductive Phase (ω ρ : Type) where
  | idle
  | invoked (op : ω)
  | answered (answer : ρ)
  | returned

/-- The object, and how far each call has come. -/
structure World (ω ρ σ : Type) where
  object : σ
  phase : Nat → Phase ω ρ

/-- The calls of an interleaving that took effect, in the order they did. -/
def order (actions : List (Action ω κ ρ)) : List (Nat × κ) := actions.filterMap Action.taken

/-- An interleaving as an observer sees it. -/
def history (actions : List (Action ω κ ρ)) : List (Event ω ρ) := actions.filterMap Action.event

/-- Serve a numbered call. -/
def serveAt (serve : κ → σ → ρ × σ) (call : Nat × κ) : σ → ρ × σ := serve call.2

/-- The interleavings of calls from an object on, with the world they lead to. An operation `fits` the
serial calls it may take effect as. -/
inductive Run (serve : κ → σ → ρ × σ) (fits : ω → κ → Prop) (init : σ) :
    List (Action ω κ ρ) → World ω ρ σ → Prop where
  | start : Run serve fits init [] ⟨init, fun _ => .idle⟩
  | invoke {past : List (Action ω κ ρ)} {w : World ω ρ σ} {id : Nat} {op : ω}
      (run : Run serve fits init past w) (idle : w.phase id = .idle) :
      Run serve fits init (past ++ [.invoke id op])
        { w with phase := Function.update w.phase id (.invoked op) }
  | take {past : List (Action ω κ ρ)} {w : World ω ρ σ} {id : Nat} {op : ω} {call : κ}
      (run : Run serve fits init past w) (invoked : w.phase id = .invoked op) (isFit : fits op call) :
      Run serve fits init (past ++ [.take id call])
        ⟨(serve call w.object).2, Function.update w.phase id (.answered (serve call w.object).1)⟩
  | respond {past : List (Action ω κ ρ)} {w : World ω ρ σ} {id : Nat} {answer : ρ}
      (run : Run serve fits init past w) (answered : w.phase id = .answered answer) :
      Run serve fits init (past ++ [.respond id answer])
        { w with phase := Function.update w.phase id .returned }

/-! ### Serial orders -/

/-- A serial order explains what an observer saw: every call is in it at most once and as a call its
operation fits, every answer is the one the serial calls give, and real time is kept. -/
structure Linearizes (serve : κ → σ → ρ × σ) (fits : ω → κ → Prop) (init : σ)
    (seen : List (Event ω ρ)) (calls : List (Nat × κ)) : Prop where
  once : (calls.map Prod.fst).Nodup
  invoked : ∀ id call, (id, call) ∈ calls → ∃ op, .invoke id op ∈ seen ∧ fits op call
  answers : ∀ id answer, .respond id answer ∈ seen →
    ∃ call, ((id, call), answer) ∈ Runs.trace (serveAt serve) calls init
  realTime : ∀ earlier later first answer second op, seen = earlier ++ .respond first answer :: later →
    .invoke second op ∈ later → second ∈ calls.map Prod.fst →
      [first, second].Sublist (calls.map Prod.fst)

variable {serve : κ → σ → ρ × σ} {fits : ω → κ → Prop} {init : σ} {past actions : List (Action ω κ ρ)}
  {w : World ω ρ σ}

theorem order_append (past : List (Action ω κ ρ)) (action : Action ω κ ρ) :
    order (past ++ [action]) = order past ++ action.taken.toList := by
  rw [order, List.filterMap_append, order]
  cases action <;> rfl

theorem history_append (past : List (Action ω κ ρ)) (action : Action ω κ ρ) :
    history (past ++ [action]) = history past ++ action.event.toList := by
  rw [history, List.filterMap_append, history]
  cases action <;> rfl

/-- A call that is in the trace is in the order. -/
theorem mem_order_of_trace {id : Nat} {call : κ} {answer : ρ} {calls : List (Nat × κ)}
    (served : ((id, call), answer) ∈ Runs.trace (serveAt serve) calls init) : id ∈ calls.map Prod.fst := by
  have called : (id, call) ∈ (Runs.trace (serveAt serve) calls init).map Prod.fst :=
    List.mem_map.mpr ⟨_, served, rfl⟩
  rw [Runs.trace_calls] at called
  exact List.mem_map.mpr ⟨_, called, rfl⟩

/-- An order explains one more event: a call that is not in it begins, or one returns what it was served. -/
theorem Linearizes.append {seen : List (Event ω ρ)} {calls : List (Nat × κ)}
    (before : Linearizes serve fits init seen calls) {event : Event ω ρ}
    (begins : ∀ id op, event = .invoke id op → id ∉ calls.map Prod.fst)
    (returns : ∀ id answer, event = .respond id answer →
      ∃ call, ((id, call), answer) ∈ Runs.trace (serveAt serve) calls init) :
    Linearizes serve fits init (seen ++ [event]) calls := by
  constructor
  case once => exact before.once
  case invoked =>
    intro id call member
    obtain ⟨op, began, isFit⟩ := before.invoked id call member
    exact ⟨op, List.mem_append_left _ began, isFit⟩
  case answers =>
    intro id answer returned
    rcases List.mem_append.mp returned with inPast | isNew
    · exact before.answers id answer inPast
    · exact returns id answer (List.mem_singleton.mp isNew).symm
  case realTime =>
    intro earlier later first answer second op split began member
    rcases Runs.append_singleton_eq_append_cons.mp split with ⟨-, -, rfl⟩ | ⟨rest, rfl, sameSeen⟩
    · cases began
    · rcases List.mem_append.mp began with inPast | isNew
      · exact before.realTime earlier rest first answer second op sameSeen inPast member
      · exact absurd member (begins second op (List.mem_singleton.mp isNew).symm)

/-- What the actions so far say about a world. -/
structure Tracks (serve : κ → σ → ρ × σ) (fits : ω → κ → Prop) (init : σ) (past : List (Action ω κ ρ))
    (w : World ω ρ σ) : Prop where
  object_eq : w.object = Runs.final (serveAt serve) (order past) init
  idle : ∀ id, w.phase id = .idle → id ∉ (order past).map Prod.fst
  invoked : ∀ id op, w.phase id = .invoked op →
    id ∉ (order past).map Prod.fst ∧ .invoke id op ∈ history past
  answered : ∀ id answer, w.phase id = .answered answer →
    ∃ call, ((id, call), answer) ∈ Runs.trace (serveAt serve) (order past) init
  linearizes : Linearizes serve fits init (history past) (order past)

theorem tracks_start : Tracks serve fits init [] (⟨init, fun _ => .idle⟩ : World ω ρ σ) where
  object_eq := rfl
  idle id _ := by simp [order]
  invoked id op isInvoked := by cases isInvoked
  answered id answer isAnswered := by cases isAnswered
  linearizes := ⟨by simp [order], by simp [order], by simp [history], by simp [history]⟩

/-- A call begins. -/
theorem Tracks.invoke (tracks : Tracks serve fits init past w) {id : Nat} (idle : w.phase id = .idle) (op : ω) :
    Tracks serve fits init (past ++ [.invoke id op])
      { w with phase := Function.update w.phase id (.invoked op) } := by
  have sameOrder : order (past ++ [.invoke id op]) = order past := by
    rw [order_append]
    exact List.append_nil _
  have longer : history (past ++ [.invoke id op]) = history past ++ [.invoke id op] := history_append _ _
  constructor
  case object_eq =>
    rw [sameOrder]
    exact tracks.object_eq
  case idle =>
    intro other isIdle
    dsimp only at isIdle
    rw [sameOrder]
    by_cases same : other = id
    · exact same ▸ tracks.idle id idle
    · rw [Function.update_of_ne same] at isIdle
      exact tracks.idle other isIdle
  case invoked =>
    intro other op' isInvoked
    dsimp only at isInvoked
    rw [sameOrder, longer]
    by_cases same : other = id
    · subst same
      rw [Function.update_self, Phase.invoked.injEq] at isInvoked
      subst isInvoked
      exact ⟨tracks.idle other idle, List.mem_append_right _ (List.mem_singleton_self _)⟩
    · rw [Function.update_of_ne same] at isInvoked
      obtain ⟨notYet, began⟩ := tracks.invoked other op' isInvoked
      exact ⟨notYet, List.mem_append_left _ began⟩
  case answered =>
    intro other answer isAnswered
    dsimp only at isAnswered
    rw [sameOrder]
    by_cases same : other = id
    · rw [same, Function.update_self] at isAnswered
      cases isAnswered
    · rw [Function.update_of_ne same] at isAnswered
      exact tracks.answered other answer isAnswered
  case linearizes =>
    rw [sameOrder, longer]
    apply tracks.linearizes.append
    · rintro _ _ ⟨⟩
      exact tracks.idle id idle
    · rintro _ _ ⟨⟩

/-- A call takes effect. -/
theorem Tracks.take (tracks : Tracks serve fits init past w) {id : Nat} {op : ω} {call : κ}
    (invoked : w.phase id = .invoked op) (isFit : fits op call) :
    Tracks serve fits init (past ++ [.take id call])
      ⟨(serve call w.object).2, Function.update w.phase id (.answered (serve call w.object).1)⟩ := by
  have longer : order (past ++ [.take id call]) = order past ++ [(id, call)] := order_append _ _
  have sameHistory : history (past ++ [.take id call]) = history past := by
    rw [history_append]
    exact List.append_nil _
  have longerIds : (order (past ++ [.take id call])).map Prod.fst = (order past).map Prod.fst ++ [id] := by
    rw [longer, List.map_append]
    rfl
  obtain ⟨notYet, began⟩ := tracks.invoked id op invoked
  have before := tracks.linearizes
  have traced : Runs.trace (serveAt serve) (order past ++ [(id, call)]) init =
      Runs.trace (serveAt serve) (order past) init ++ [((id, call), (serve call w.object).1)] := by
    rw [Runs.trace_append, ← tracks.object_eq]
    rfl
  have elsewhere : ∀ other phase, (Function.update w.phase id (.answered (serve call w.object).1)) other = phase →
      (∀ answer, phase ≠ .answered answer) → other ≠ id ∧ w.phase other = phase := by
    intro other phase is notAnswered
    by_cases same : other = id
    · rw [same, Function.update_self] at is
      exact absurd is.symm (notAnswered _)
    · rw [Function.update_of_ne same] at is
      exact ⟨same, is⟩
  constructor
  case object_eq =>
    rw [longer, Runs.final_append, ← tracks.object_eq]
    rfl
  case idle =>
    intro other isIdle
    obtain ⟨apart, same⟩ := elsewhere other _ isIdle (by simp)
    rw [longerIds, List.mem_append, List.mem_singleton, not_or]
    exact ⟨tracks.idle other same, apart⟩
  case invoked =>
    intro other op' isInvoked
    obtain ⟨apart, same⟩ := elsewhere other _ isInvoked (by simp)
    obtain ⟨out, inHistory⟩ := tracks.invoked other op' same
    rw [longerIds, sameHistory, List.mem_append, List.mem_singleton, not_or]
    exact ⟨⟨out, apart⟩, inHistory⟩
  case answered =>
    intro other answer isAnswered
    dsimp only at isAnswered
    rw [longer, traced]
    by_cases same : other = id
    · subst same
      rw [Function.update_self, Phase.answered.injEq] at isAnswered
      subst isAnswered
      exact ⟨call, List.mem_append_right _ (List.mem_singleton_self _)⟩
    · rw [Function.update_of_ne same] at isAnswered
      obtain ⟨earlierCall, served⟩ := tracks.answered other answer isAnswered
      exact ⟨earlierCall, List.mem_append_left _ served⟩
  case linearizes =>
    rw [sameHistory]
    constructor
    case once =>
      rw [longerIds, List.nodup_append]
      refine ⟨before.once, List.nodup_singleton id, ?_⟩
      rintro a inPast b isNew rfl
      exact notYet (List.mem_singleton.mp isNew ▸ inPast)
    case invoked =>
      intro other otherCall member
      rw [longer] at member
      rcases List.mem_append.mp member with inPast | isNew
      · exact before.invoked other otherCall inPast
      · cases List.mem_singleton.mp isNew
        exact ⟨op, began, isFit⟩
    case answers =>
      intro other answer returned
      obtain ⟨earlierCall, served⟩ := before.answers other answer returned
      rw [longer, traced]
      exact ⟨earlierCall, List.mem_append_left _ served⟩
    case realTime =>
      intro earlier later first answer second op' split start member
      rw [longerIds] at member ⊢
      rcases List.mem_append.mp member with inPast | isNew
      · exact (before.realTime earlier later first answer second op' split start inPast).trans
          (List.sublist_append_left _ _)
      · -- who has returned is in the order already
        cases List.mem_singleton.mp isNew
        have returned : Event.respond first answer ∈ history past := by
          rw [split]
          simp
        obtain ⟨_, served⟩ := before.answers first answer returned
        exact List.Sublist.append (List.singleton_sublist.mpr (mem_order_of_trace served)) (List.Sublist.refl [id])

/-- A call returns. -/
theorem Tracks.respond (tracks : Tracks serve fits init past w) {id : Nat} {answer : ρ}
    (answered : w.phase id = .answered answer) :
    Tracks serve fits init (past ++ [.respond id answer])
      { w with phase := Function.update w.phase id .returned } := by
  have sameOrder : order (past ++ [.respond id answer]) = order past := by
    rw [order_append]
    exact List.append_nil _
  have longer : history (past ++ [.respond id answer]) = history past ++ [.respond id answer] :=
    history_append _ _
  have elsewhere : ∀ other phase, (Function.update w.phase id Phase.returned) other = phase →
      phase ≠ .returned → w.phase other = phase := by
    intro other phase is notReturned
    by_cases same : other = id
    · rw [same, Function.update_self] at is
      exact absurd is.symm notReturned
    · rwa [Function.update_of_ne same] at is
  constructor
  case object_eq =>
    rw [sameOrder]
    exact tracks.object_eq
  case idle =>
    intro other isIdle
    rw [sameOrder]
    exact tracks.idle other (elsewhere other _ isIdle (by simp))
  case invoked =>
    intro other op isInvoked
    obtain ⟨out, inHistory⟩ := tracks.invoked other op (elsewhere other _ isInvoked (by simp))
    rw [sameOrder, longer]
    exact ⟨out, List.mem_append_left _ inHistory⟩
  case answered =>
    intro other other_answer isAnswered
    rw [sameOrder]
    exact tracks.answered other other_answer (elsewhere other _ isAnswered (by simp))
  case linearizes =>
    rw [sameOrder, longer]
    apply tracks.linearizes.append
    · rintro _ _ ⟨⟩
    · rintro _ _ ⟨⟩
      exact tracks.answered id answer answered

theorem Run.tracks (run : Run serve fits init actions w) : Tracks serve fits init actions w := by
  induction run with
  | start => exact tracks_start
  | invoke _ idle inductionHypothesis => exact inductionHypothesis.invoke idle _
  | take _ invoked isFit inductionHypothesis => exact inductionHypothesis.take invoked isFit
  | respond _ answered inductionHypothesis => exact inductionHypothesis.respond answered

/-- The calls in the order they took effect explain every interleaving. -/
theorem Run.linearizes (run : Run serve fits init actions w) :
    Linearizes serve fits init (history actions) (order actions) := run.tracks.linearizes

/-- The object is the one the serial calls leave. -/
theorem Run.object_eq (run : Run serve fits init actions w) :
    w.object = Runs.final (serveAt serve) (order actions) init := run.tracks.object_eq

/-- A call that is idle after another one moved was idle before. -/
theorem idle_of_update {phase : Nat → Phase ω ρ} {id other : Nat} {moved : Phase ω ρ} (busy : moved ≠ .idle)
    (isIdle : Function.update phase id moved other = .idle) : other ≠ id ∧ phase other = .idle := by
  by_cases same : other = id
  · rw [same, Function.update_self] at isIdle
    exact absurd isIdle busy
  · rw [Function.update_of_ne same] at isIdle
    exact ⟨same, isIdle⟩

/-- A call is invoked once. -/
theorem Run.invoked_once (run : Run serve fits init actions w) :
    (∀ id, w.phase id = .idle → ∀ op, .invoke id op ∉ history actions) ∧
      ∀ id op op', .invoke id op ∈ history actions → .invoke id op' ∈ history actions → op = op' := by
  induction run with
  | start => simp [history]
  | @invoke past w id op run idle inductionHypothesis =>
      obtain ⟨fresh, once⟩ := inductionHypothesis
      have longer : history (past ++ [.invoke id op]) = history past ++ [.invoke id op] := history_append _ _
      rw [longer]
      constructor
      · intro other isIdle op' member
        obtain ⟨isOther, wasIdle⟩ := idle_of_update (by simp) isIdle
        rcases List.mem_append.mp member with inPast | isLast
        · exact fresh other wasIdle op' inPast
        · cases List.mem_singleton.mp isLast
          exact isOther rfl
      · intro other first second isFirst isSecond
        rcases List.mem_append.mp isFirst with inPast | isLast
        · rcases List.mem_append.mp isSecond with inPast' | isLast'
          · exact once other first second inPast inPast'
          · cases List.mem_singleton.mp isLast'
            exact absurd inPast (fresh id idle first)
        · cases List.mem_singleton.mp isLast
          rcases List.mem_append.mp isSecond with inPast' | isLast'
          · exact absurd inPast' (fresh id idle second)
          · cases List.mem_singleton.mp isLast'
            rfl
  | @take past w id op call run invoked isFit inductionHypothesis =>
      have same : history (past ++ [.take id call]) = history past := by
        rw [history_append]
        exact List.append_nil _
      rw [same]
      refine ⟨?_, inductionHypothesis.2⟩
      intro other isIdle
      exact inductionHypothesis.1 other (idle_of_update (by simp) isIdle).2
  | @respond past w id answer run answered inductionHypothesis =>
      have longer : history (past ++ [.respond id answer]) = history past ++ [.respond id answer] :=
        history_append _ _
      have inPast : ∀ other op, .invoke other op ∈ history past ++ [.respond id answer] →
          .invoke other op ∈ history past := by
        intro other op member
        rcases List.mem_append.mp member with here | isLast
        · exact here
        · cases List.mem_singleton.mp isLast
      rw [longer]
      constructor
      · intro other isIdle op member
        exact inductionHypothesis.1 other (idle_of_update (by simp) isIdle).2 op (inPast other op member)
      · intro other first second isFirst isSecond
        exact inductionHypothesis.2 other first second (inPast _ _ isFirst) (inPast _ _ isSecond)

/-! ### Some of the calls -/

/-- An order that explains what an observer saw, without the calls that cannot be told to have been made,
explains what was seen of the others. -/
theorem Linearizes.restrict {seen : List (Event ω ρ)} {calls : List (Nat × κ)}
    (linearizes : Linearizes serve fits init seen calls) {mine : Nat → Bool}
    (alone : (Runs.trace (serveAt serve) calls init).filter (fun entry => mine entry.1.1) =
      Runs.trace (serveAt serve) (calls.filter fun call => mine call.1) init) :
    Linearizes serve fits init (seen.filter fun event => mine event.id) (calls.filter fun call => mine call.1) := by
  have ids : (calls.filter fun call => mine call.1).map Prod.fst = (calls.map Prod.fst).filter mine := by
    rw [List.filter_map]
    rfl
  constructor
  case once =>
    rw [ids]
    exact linearizes.once.filter mine
  case invoked =>
    intro id call member
    obtain ⟨inOrder, isMine⟩ := List.mem_filter.mp member
    obtain ⟨op, began, isFit⟩ := linearizes.invoked id call inOrder
    exact ⟨op, List.mem_filter.mpr ⟨began, isMine⟩, isFit⟩
  case answers =>
    intro id answer returned
    obtain ⟨inSeen, isMine⟩ := List.mem_filter.mp returned
    obtain ⟨call, served⟩ := linearizes.answers id answer inSeen
    exact ⟨call, alone ▸ List.mem_filter.mpr ⟨served, isMine⟩⟩
  case realTime =>
    intro earlier later first answer second op split began member
    obtain ⟨front, back, rfl, rfl, isBack⟩ := List.filter_eq_append_iff.mp split
    obtain ⟨skipped, rest, rfl, -, firstMine, rfl⟩ := List.filter_eq_cons_iff.mp isBack
    obtain ⟨inRest, secondMine⟩ := List.mem_filter.mp began
    rw [ids] at member ⊢
    have both := linearizes.realTime (front ++ skipped) rest first answer second op
      (by rw [List.append_assoc]) inRest (List.mem_filter.mp member).1
    have kept : [first, second].filter mine = [first, second] :=
      List.filter_eq_self.mpr (by
        intro id isEither
        rcases List.mem_pair.mp isEither with rfl | rfl
        · exact firstMine
        · exact secondMine)
    exact kept ▸ both.filter mine

end Linearization
