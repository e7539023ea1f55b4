import ClassScript.Proofs.Scan

/-!
# Calls on the state of a recognizer

The state may be asked at any time, and with any arguments, to match a class, to open a keyword or to
close one. What has succeeded so far tells which state it is in: nothing at first; then a match and some
keywords, each opened and closed again; or the same with one more keyword that is still open. A call
that does not fit is refused or closes nothing, and it changes nothing.
-/

namespace ClassScript.Recognizer.State

/-! ## Calls -/

inductive Call where
  | matchClass (sides : Sides)
  | openKeyword (keyword : Keyword)
  | close (path : Path)

/-- What a call answers: nothing, whether it has closed a keyword, or the step that is not allowed. -/
inductive Answer where
  | done
  | told (closed : Bool)
  | refused (transition : Transition)

structure Move where
  before : State
  call : Call
  answer : Answer
  after : State

def settle (state : State) (call : Call) : State × Except Transition Unit → Move
  | (next, .ok ()) => ⟨state, call, .done, next⟩
  | (next, .error transition) => ⟨state, call, .refused transition, next⟩

def perform (state : State) (call : Call) : Move :=
  match call with
  | .matchClass sides => state.settle call (state.matchClass sides)
  | .openKeyword keyword => state.settle call (state.openKeyword keyword)
  | .close path => ⟨state, call, .told (state.close path).2, (state.close path).1⟩

def moves (state : State) : List Call → List Move
  | [] => []
  | call :: rest => state.perform call :: moves (state.perform call).after rest

/-! ## What a call does -/

section Perform

variable (state : State) (sides : Sides) (keyword : Keyword) (path : Path)

theorem perform_matchClass (h : state.phase = .awaitingClass) :
    state.perform (.matchClass sides) =
      ⟨state, .matchClass sides, .done, { state with sides, phase := .awaitingKeyword }⟩ := by
  rw [perform, matchClass_of_phase h, settle]

theorem perform_matchClass_refused (h : state.phase ≠ .awaitingClass) :
    state.perform (.matchClass sides) =
      ⟨state, .matchClass sides, .refused ⟨state.phase, .awaitingClass⟩, state⟩ := by
  rw [perform, matchClass_of_ne h, settle]

theorem perform_openKeyword (h : state.phase = .awaitingKeyword) :
    state.perform (.openKeyword keyword) =
      ⟨state, .openKeyword keyword, .done,
        { state with keyword := some keyword, phase := .keywordOpen }⟩ := by
  rw [perform, openKeyword_of_phase h, settle]

theorem perform_openKeyword_refused (h : state.phase ≠ .awaitingKeyword) :
    state.perform (.openKeyword keyword) =
      ⟨state, .openKeyword keyword, .refused ⟨state.phase, .awaitingKeyword⟩, state⟩ := by
  rw [perform, openKeyword_of_ne h, settle]

theorem perform_close (h : state.keyword.map Keyword.call = some path) :
    state.perform (.close path) =
      ⟨state, .close path, .told true, { state with keyword := none, phase := .awaitingKeyword }⟩ := by
  obtain ⟨keyword, hkeyword, hcall⟩ := Option.map_eq_some_iff.1 h
  simp only [perform, close, hkeyword, if_pos hcall]

theorem perform_close_failed (h : state.keyword.map Keyword.call ≠ some path) :
    state.perform (.close path) = ⟨state, .close path, .told false, state⟩ := by
  cases hkeyword : state.keyword with
  | none => simp only [perform, close, hkeyword]
  | some keyword =>
    have hcall : keyword.call ≠ path := by
      simpa [hkeyword] using h
    simp only [perform, close, hkeyword, if_neg hcall]

/-- A call is made on the state, and it changes nothing if it fails. -/
theorem perform_frame (call : Call) :
    (state.perform call).before = state ∧ (state.perform call).call = call ∧
      ((∃ transition, (state.perform call).answer = .refused transition) ∨
        (state.perform call).answer = .told false → (state.perform call).after = state) := by
  cases call with
  | matchClass sides =>
    by_cases hphase : state.phase = .awaitingClass
    · simp [perform_matchClass state sides hphase]
    · simp [perform_matchClass_refused state sides hphase]
  | openKeyword keyword =>
    by_cases hphase : state.phase = .awaitingKeyword
    · simp [perform_openKeyword state keyword hphase]
    · simp [perform_openKeyword_refused state keyword hphase]
  | close path =>
    by_cases hcall : state.keyword.map Keyword.call = some path
    · simp [perform_close state path hcall]
    · simp [perform_close_failed state path hcall]

theorem answer_openKeyword :
    ((state.perform (.openKeyword keyword)).answer = .done ↔ state.phase = .awaitingKeyword) ∧
      ((state.perform (.openKeyword keyword)).answer = .done →
        (state.perform (.openKeyword keyword)).after = .during state.sides keyword) := by
  by_cases hphase : state.phase = .awaitingKeyword
  · simp [perform_openKeyword state keyword hphase, hphase, State.during]
  · simp [perform_openKeyword_refused state keyword hphase, hphase]

theorem answer_close :
    ((state.perform (.close path)).answer = .told true ↔
        ∃ keyword, state.keyword = some keyword ∧ keyword.call = path) ∧
      ((state.perform (.close path)).answer = .told true →
        (state.perform (.close path)).after = .between state.sides) := by
  rw [← Option.map_eq_some_iff]
  by_cases hcall : state.keyword.map Keyword.call = some path
  · simp [perform_close state path hcall, hcall, State.between]
  · simp [perform_close_failed state path hcall, hcall]

end Perform

/-! ## Histories -/

inductive Event where
  | matched
  | opened (call : Path)
  | closed (call : Path)
deriving DecidableEq

def Move.event? (move : Move) : Option Event :=
  match move.answer, move.call with
  | .done, .matchClass _ => some .matched
  | .done, .openKeyword keyword => some (.opened keyword.call)
  | .told true, .close path => some (.closed path)
  | _, _ => none

/-- A keyword call is opened and then closed. -/
def Event.bracket (call : Path) : List Event := [.opened call, .closed call]

/-- The state that a history of successful calls leads to, up to what the calls were given. -/
inductive LedTo : List Event → State → Prop where
  | fresh : LedTo [] .fresh
  | between (calls : List Path) (sides : Sides) :
    LedTo (.matched :: calls.flatMap Event.bracket) (.between sides)
  | during (calls : List Path) (sides : Sides) (keyword : Keyword) :
    LedTo (.matched :: calls.flatMap Event.bracket ++ [.opened keyword.call]) (.during sides keyword)

namespace LedTo

variable {events : List Event} {state : State}

/-- A keyword is held just while it is open. -/
theorem isSome_keyword_iff (h : LedTo events state) :
    state.keyword.isSome ↔ state.phase = .keywordOpen := by
  cases h with
  | fresh => simp [State.fresh]
  | between calls sides => simp [State.between]
  | during calls sides keyword => simp [State.during]

theorem sides_eq_nil (h : LedTo events state) (hphase : state.phase = .awaitingClass) :
    state.sides = [] := by
  cases h with
  | fresh => rfl
  | between calls sides => simp [State.between] at hphase
  | during calls sides keyword => simp [State.during] at hphase

/-- A class is matched just when the recognizer waits for one, and then no keyword is open. -/
theorem answer_matchClass (h : LedTo events state) (sides : Sides) :
    ((state.perform (.matchClass sides)).answer = .done ↔ state.phase = .awaitingClass) ∧
      ((state.perform (.matchClass sides)).answer = .done →
        (state.perform (.matchClass sides)).after = .between sides) := by
  by_cases hphase : state.phase = .awaitingClass
  · have hkeyword : state.keyword = none := by
      rw [← Option.not_isSome_iff_eq_none, h.isSome_keyword_iff, hphase]
      exact Phase.noConfusion
    simp [perform_matchClass state sides hphase, hphase, hkeyword, State.between]
  · simp [perform_matchClass_refused state sides hphase, hphase]

/-- A history is an initial part of a match and then keyword calls, each opened and closed. -/
theorem exists_prefix (h : LedTo events state) :
    ∃ calls : List Path, events <+: .matched :: calls.flatMap Event.bracket := by
  cases h with
  | fresh => exact ⟨[], List.nil_prefix⟩
  | between calls sides => exact ⟨calls, List.prefix_refl _⟩
  | during calls sides keyword =>
    refine ⟨calls ++ [keyword.call], [.closed keyword.call], ?_⟩
    simp [Event.bracket]

/-- With what a call adds to it, the history leads to the state after the call. -/
theorem perform (h : LedTo events state) (call : Call) :
    LedTo (events ++ (state.perform call).event?.toList) (state.perform call).after := by
  have hstay : LedTo (events ++ (none : Option Event).toList) state := by
    rwa [Option.toList_none, List.append_nil]
  cases call with
  | matchClass sides =>
    by_cases hphase : state.phase = .awaitingClass
    · rw [perform_matchClass state sides hphase]
      cases h with
      | fresh => exact .between [] sides
      | between => cases hphase
      | during => cases hphase
    · rw [perform_matchClass_refused state sides hphase]
      exact hstay
  | openKeyword keyword =>
    by_cases hphase : state.phase = .awaitingKeyword
    · rw [perform_openKeyword state keyword hphase]
      cases h with
      | fresh => cases hphase
      | between calls sides => exact .during calls sides keyword
      | during => cases hphase
    · rw [perform_openKeyword_refused state keyword hphase]
      exact hstay
  | close path =>
    by_cases hcall : state.keyword.map Keyword.call = some path
    · rw [perform_close state path hcall]
      cases h with
      | fresh => cases hcall
      | between => cases hcall
      | during calls sides keyword =>
        -- the keyword that was open is one more that has been opened and closed
        have hpath : keyword.call = path := Option.some.inj hcall
        have hlonger := LedTo.between (calls ++ [keyword.call]) sides
        rw [List.flatMap_append, List.flatMap_singleton] at hlonger
        rw [← hpath, List.append_assoc]
        exact hlonger
    · rw [perform_close_failed state path hcall]
      exact hstay

end LedTo

/-! ## Runs -/

/-- What holds of every call in a run. -/
structure Move.Lawful (move : Move) : Prop where
  /-- There is an open keyword exactly in the phase for it. -/
  context : move.after.keyword.isSome ↔ move.after.phase = .keywordOpen
  /-- No side has a name as long as no class has been matched. -/
  sides : move.after.phase = .awaitingClass → move.after.sides = []
  /-- A call that is refused or closes nothing changes nothing. -/
  failed : (∃ transition, move.answer = .refused transition) ∨ move.answer = .told false →
    move.after = move.before
  /-- A class is matched exactly while one is awaited. -/
  matching : ∀ sides, move.call = .matchClass sides →
    (move.answer = .done ↔ move.before.phase = .awaitingClass) ∧
      (move.answer = .done → move.after = .between sides)
  /-- A keyword is opened exactly while one is awaited. -/
  opening : ∀ keyword, move.call = .openKeyword keyword →
    (move.answer = .done ↔ move.before.phase = .awaitingKeyword) ∧
      (move.answer = .done → move.after = .during move.before.sides keyword)
  /-- A keyword is closed exactly if one is open on the very call. -/
  closing : ∀ path, move.call = .close path →
    (move.answer = .told true ↔ ∃ keyword, move.before.keyword = some keyword ∧ keyword.call = path) ∧
      (move.answer = .told true → move.after = .between move.before.sides)

/-- Whatever has led to a state, each call of it is lawful. -/
theorem LedTo.lawful {events : List Event} {state : State} (h : LedTo events state) (call : Call) :
    (state.perform call).Lawful := by
  obtain ⟨hbefore, hcall, hfailed⟩ := state.perform_frame call
  constructor
  case context => exact (h.perform call).isSome_keyword_iff
  case sides => exact (h.perform call).sides_eq_nil
  case failed => rwa [hbefore]
  case matching =>
    intro sides heq
    obtain rfl := hcall.symm.trans heq
    rw [hbefore]
    exact h.answer_matchClass sides
  case opening =>
    intro keyword heq
    obtain rfl := hcall.symm.trans heq
    rw [hbefore]
    exact state.answer_openKeyword keyword
  case closing =>
    intro path heq
    obtain rfl := hcall.symm.trans heq
    rw [hbefore]
    exact state.answer_close path

/-- What holds of every run. -/
structure Lawful (moves : List Move) : Prop where
  each : ∀ move ∈ moves, move.Lawful
  /-- At most one class is matched. -/
  once : (moves.filterMap Move.event?).count .matched ≤ 1
  /-- What succeeds is a match, and then keywords are opened and closed in turn, each on its own call. -/
  alternating : ∃ calls : List Path,
    moves.filterMap Move.event? <+: .matched :: calls.flatMap Event.bracket

/-- Runs of any length are lawful, and what they do can be read as a history. -/
theorem LedTo.moves {events : List Event} {state : State} (h : LedTo events state)
    (calls : List Call) :
    (∀ move ∈ state.moves calls, move.Lawful) ∧
      ∃ final, LedTo (events ++ (state.moves calls).filterMap Move.event?) final := by
  induction calls generalizing events state with
  | nil =>
    refine ⟨List.forall_mem_nil _, state, ?_⟩
    rwa [State.moves, List.filterMap_nil, List.append_nil]
  | cons call rest ih =>
    obtain ⟨hrest, final, hfinal⟩ := ih (h.perform call)
    rw [State.moves]
    refine ⟨List.forall_mem_cons.2 ⟨h.lawful call, hrest⟩, final, ?_⟩
    rw [List.append_assoc] at hfinal
    cases hevent : (state.perform call).event? with
    | none =>
      rw [List.filterMap_cons_none hevent]
      rwa [hevent] at hfinal
    | some event =>
      rw [List.filterMap_cons_some hevent]
      rwa [hevent] at hfinal

theorem count_matched_bracket (calls : List Path) :
    (calls.flatMap Event.bracket).count .matched = 0 := by
  rw [List.count_eq_zero, List.mem_flatMap]
  rintro ⟨call, _, hmem⟩
  simp [Event.bracket] at hmem

/-- Whatever is called on a fresh state, every call does what it should, at most one class is matched,
and keywords are opened and closed in turn. -/
theorem moves_lawful (calls : List Call) : Lawful (fresh.moves calls) := by
  obtain ⟨heach, final, hfinal⟩ := LedTo.fresh.moves calls
  obtain ⟨opened, hprefix⟩ := hfinal.exists_prefix
  refine ⟨heach, ?_, opened, hprefix⟩
  calc ((fresh.moves calls).filterMap Move.event?).count .matched
      ≤ (Event.matched :: opened.flatMap Event.bracket).count .matched :=
        hprefix.sublist.count_le _
    _ = 1 := by rw [List.count_cons_self, count_matched_bracket]

end ClassScript.Recognizer.State
