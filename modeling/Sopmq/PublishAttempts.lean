import Sopmq.PublishHandler

/-!
# The attempts of a publish

What a publish with the local node comes to: a walk over the slots that are tried, in
order. A null slot ends the walk. The local node takes the content if the identifier of the
message has the right size, and raises otherwise. A raised error ends the walk unless the
attempt was made from inside the `try` block of the first node's callback. How a walk ends
and what every node is handed can be read off the slots.
-/

namespace Sopmq

/-- The error that `uuid_from_bytes` raises, with its text. -/
def wrongSize : LocalError := .runtime "uuid_from_bytes(): input was not the correct size"

/-- A slot that is tried, and whether an error of its call is caught by the
callback it is made from. -/
structure Attempt where
  slot : Option Node
  guarded : Bool
deriving DecidableEq, Repr

namespace Attempt

/-- What attempts come to: whom they hand which content, the content that
they leave in the message, and how they end. -/
structure Made where
  calls : List (Node × Bytes)
  content : Bytes
  outcome : Outcome
deriving DecidableEq, Repr

/-- Attempts followed by others if they return. The others find the content
that is left. -/
def Made.andThen (made : Made) (next : Bytes → Made) : Made :=
  match made.outcome with
  | .returned =>
      ⟨made.calls ++ (next made.content).calls, (next made.content).content,
        (next made.content).outcome⟩
  | _ => made

/-- One attempt, for a local node and an identifier whose size is right or
not. -/
def make (self : Node) (valid : Bool) (content : Bytes) (attempt : Attempt) : Made :=
  match attempt.slot with
  | none => ⟨[], content, .nullDereferenced⟩
  | some node =>
      if node = self then
        if valid then ⟨[(node, content)], [], .returned⟩
        else ⟨[(node, content)], content,
          if attempt.guarded then .returned else .raised wrongSize⟩
      else
        ⟨[(node, content)], content, .returned⟩

/-- The walk over the attempts, each with the content that the one before
has left. -/
def walk (self : Node) (valid : Bool) : Bytes → List Attempt → Made
  | content, [] => ⟨[], content, .returned⟩
  | content, attempt :: rest =>
      (attempt.make self valid content).andThen fun content => walk self valid content rest

/-- The nodes that are called while nothing raises: those before the first
null slot. -/
def called : List Attempt → List Node
  | [] => []
  | attempt :: rest =>
      match attempt.slot with
      | none => []
      | some node => node :: called rest

/-- Attempts that do not return are followed by nothing. -/
theorem Made.andThen_unreturned (made : Made) (next : Bytes → Made)
    (unreturned : made.outcome ≠ .returned) : made.andThen next = made := by
  unfold andThen
  split
  · next returned => exact absurd returned unreturned
  · rfl

/-- It does not matter how successive attempts are grouped. -/
theorem Made.andThen_assoc (made : Made) (next following : Bytes → Made) :
    (made.andThen next).andThen following =
      made.andThen fun content => (next content).andThen following := by
  unfold andThen
  cases ended : made.outcome with
  | returned =>
    dsimp only
    cases later : (next made.content).outcome <;> simp [later, List.append_assoc]
  | raised error => simp [ended]
  | nullDereferenced => simp [ended]
  | unfinished => simp [ended]

variable (self : Node) (valid : Bool) (content : Bytes) (guarded : Bool) (attempts : List Attempt)

/-- A guard makes a difference to an attempt that raises, and to no other:
with it the attempt returns. -/
theorem make_guarded (slot : Option Node) :
    ((make self valid content ⟨slot, false⟩).outcome = .raised wrongSize ∧
      make self valid content ⟨slot, guarded⟩ =
        { make self valid content ⟨slot, false⟩ with
          outcome := if guarded then .returned else .raised wrongSize }) ∨
    ((∀ error, (make self valid content ⟨slot, false⟩).outcome ≠ .raised error) ∧
      make self valid content ⟨slot, guarded⟩ = make self valid content ⟨slot, false⟩) := by
  cases slot with
  | none => exact Or.inr ⟨by simp [make], rfl⟩
  | some node =>
    by_cases same : node = self
    · cases valid with
      | true => exact Or.inr (by simp [make, same])
      | false => exact Or.inl (by simp [make, same])
    · exact Or.inr (by simp [make, same])

/-- A walk over two lists of attempts is the one followed by the other. -/
theorem walk_append (later : List Attempt) : walk self valid content (attempts ++ later) =
    (walk self valid content attempts).andThen fun content => walk self valid content later := by
  induction attempts generalizing content with
  | nil => simp [walk, Made.andThen]
  | cons attempt rest inductionHypothesis =>
    simp only [List.cons_append, walk, inductionHypothesis, Made.andThen_assoc]

/-- A walk over one attempt is that attempt. -/
theorem walk_singleton (attempt : Attempt) :
    walk self valid content [attempt] = attempt.make self valid content := by
  simp only [walk, Made.andThen]
  split
  · next ended => simp [← ended]
  · rfl

/-- A walk ends at a null slot, before anything is handed over. -/
theorem walk_null : walk self valid content (⟨none, guarded⟩ :: attempts) =
    ⟨[], content, .nullDereferenced⟩ := rfl

/-- Another node is handed the content and leaves it, and the walk goes
on. -/
theorem walk_other (node : Node) (other : node ≠ self) :
    walk self valid content (⟨some node, guarded⟩ :: attempts) =
      ⟨(node, content) :: (walk self valid content attempts).calls,
        (walk self valid content attempts).content,
        (walk self valid content attempts).outcome⟩ := by
  simp [walk, make, other, Made.andThen]

/-- The local node takes the content of a message with an identifier of the
right size, and the walk goes on without it. -/
theorem walk_taken : walk self true content (⟨some self, guarded⟩ :: attempts) =
    ⟨(self, content) :: (walk self true [] attempts).calls, (walk self true [] attempts).content,
      (walk self true [] attempts).outcome⟩ := by
  simp [walk, make, Made.andThen]

/-- Without such an identifier an unguarded attempt on the local node ends
the walk. -/
theorem walk_raised : walk self false content (⟨some self, false⟩ :: attempts) =
    ⟨[(self, content)], content, .raised wrongSize⟩ := by
  simp [walk, make, Made.andThen]

/-- The ways in which a walk begins: it ends at a null slot or at an
unguarded error, or it hands the content to a node and goes on with what the
node leaves. -/
theorem walk_cons (attempt : Attempt) :
    (attempt.slot = none ∧
      walk self valid content (attempt :: attempts) = ⟨[], content, .nullDereferenced⟩) ∨
    ((attempt.slot = some self ∧ valid = false ∧ attempt.guarded = false) ∧
      walk self valid content (attempt :: attempts) =
        ⟨[(self, content)], content, .raised wrongSize⟩) ∨
    ∃ node left, attempt.slot = some node ∧
      (node = self → valid = true ∨ attempt.guarded = true) ∧
      left = (if node = self ∧ valid = true then [] else content) ∧
      walk self valid content (attempt :: attempts) =
        ⟨(node, content) :: (walk self valid left attempts).calls,
          (walk self valid left attempts).content, (walk self valid left attempts).outcome⟩ := by
  obtain ⟨slot, guarded⟩ := attempt
  cases slot with
  | none => exact Or.inl ⟨rfl, rfl⟩
  | some node =>
    right
    by_cases same : node = self
    · subst same
      cases valid with
      | true =>
        exact Or.inr ⟨node, [], rfl, fun _ => Or.inl rfl, by simp, walk_taken node content _ _⟩
      | false =>
        cases guarded with
        | true =>
          refine Or.inr ⟨node, content, rfl, fun _ => Or.inr rfl, by simp, ?_⟩
          simp [walk, make, Made.andThen]
        | false => exact Or.inl ⟨⟨rfl, rfl, rfl⟩, walk_raised node content attempts⟩
    · exact Or.inr ⟨node, content, rfl, fun equal => absurd equal same, by simp [same],
        walk_other self valid content _ attempts node same⟩

/-- The only error that a walk raises is that of the identifier. By
induction on the attempts. -/
theorem walk_raises (error : LocalError)
    (raised : (walk self valid content attempts).outcome = .raised error) : error = wrongSize := by
  induction attempts generalizing content with
  | nil => simp [walk] at raised
  | cons attempt rest inductionHypothesis =>
    rcases walk_cons self valid content rest attempt with
      ⟨_, null⟩ | ⟨_, stopped⟩ | ⟨node, left, _, _, _, continued⟩
    · simp [null] at raised
    · rw [stopped] at raised
      exact (Outcome.raised.inj raised).symm
    · rw [continued] at raised
      exact inductionHypothesis left raised

/-- Without a readable identifier the content stays in the message, and an
empty content stays empty. -/
theorem walk_kept (kept : valid = false ∨ content = []) :
    ∀ call ∈ (walk self valid content attempts).calls, call.2 = content := by
  induction attempts with
  | nil => simp [walk]
  | cons attempt rest inductionHypothesis =>
    rcases walk_cons self valid content rest attempt with
      ⟨_, null⟩ | ⟨_, stopped⟩ | ⟨node, left, _, _, leaves, continued⟩
    · simp [null]
    · simp [stopped]
    · have same : left = content := by
        rcases kept with invalid | empty
        · simp [leaves, invalid]
        · simp [leaves, empty]
      rw [continued, List.forall_mem_cons, same]
      exact ⟨rfl, inductionHypothesis⟩

/-- With an identifier of the right size, the nodes that are called are
those before the first null slot. -/
theorem walk_called : (walk self true content attempts).calls.map Prod.fst = called attempts := by
  induction attempts generalizing content with
  | nil => rfl
  | cons attempt rest inductionHypothesis =>
    rcases walk_cons self true content rest attempt with
      ⟨slot, null⟩ | ⟨⟨_, impossible, _⟩, _⟩ | ⟨node, left, slot, _, _, continued⟩
    · simp [null, called, slot]
    · cases impossible
    · rw [continued]
      simp [called, slot, inductionHypothesis]

/-- Every node is handed the content exactly if there is none, if it is
never taken, or if no node is called after the local one. -/
theorem walk_content_iff :
    (∀ call ∈ (walk self valid content attempts).calls, call.2 = content) ↔
      content = [] ∨ valid = false ∨ self ∉ (called attempts).dropLast := by
  cases valid with
  | false =>
    exact iff_of_true (walk_kept self false content attempts (Or.inl rfl)) (Or.inr (Or.inl rfl))
  | true =>
    induction attempts with
    | nil => simp [walk, called]
    | cons attempt rest inductionHypothesis =>
      rcases walk_cons self true content rest attempt with
        ⟨slot, null⟩ | ⟨⟨_, impossible, _⟩, _⟩ | ⟨node, left, slot, _, leaves, continued⟩
      · simp [null, called, slot]
      · cases impossible
      · have later := walk_called self left rest
        have names : called (attempt :: rest) = node :: called rest := by simp [called, slot]
        rw [continued, List.forall_mem_cons, names]
        by_cases ended : called rest = []
        · rw [ended, List.map_eq_nil_iff] at later
          simp [later, ended]
        · rw [List.dropLast_cons_of_ne_nil ended]
          by_cases same : node = self
          · obtain rfl : left = [] := by simp [leaves, same]
            have empty := walk_kept self true [] rest (Or.inr rfl)
            have handed : (walk self true [] rest).calls ≠ [] := by
              intro none
              exact ended (by rw [← later, none, List.map_nil])
            obtain ⟨call, member⟩ := List.exists_mem_of_ne_nil _ handed
            constructor
            · rintro ⟨_, all⟩
              exact Or.inl ((all call member).symm.trans (empty call member))
            · rintro (rfl | impossible | absent)
              · exact ⟨rfl, empty⟩
              · cases impossible
              · exact absurd (List.mem_cons.mpr (Or.inl same.symm)) absent
          · obtain rfl : left = content := by simp [leaves, same]
            rw [inductionHypothesis]
            simp [Ne.symm same]

/-- The first node fails inside its call, as the local one always does. Then
the second slot is tried from its callback. -/
def retries (self : Node) (answers : Answers) (nodes : Fin 3 → Option Node) : Bool :=
  (nodes 0).any fun node => node = self || answers.rejectsInside node

/-- The attempts of the loop's first iteration: the first slot, and the
second one too if the first node fails inside its call. The second one is
guarded by a refusal. -/
def first (self : Node) (answers : Answers) (nodes : Fin 3 → Option Node) : List Attempt :=
  if retries self answers nodes then
    [⟨nodes 0, false⟩,
      ⟨nodes 1, (nodes 0).any fun node => node = self || answers.refuses node⟩]
  else
    [⟨nodes 0, false⟩]

/-- All attempts of a publish: the second iteration of the loop takes the
next slot. -/
def all (self : Node) (answers : Answers) (nodes : Fin 3 → Option Node) : List Attempt :=
  first self answers nodes ++
    [⟨if retries self answers nodes then nodes 2 else nodes 1, false⟩]

section First

variable {self : Node} (answers : Answers) {nodes : Fin 3 → Option Node}

/-- The first attempt if the first slot is null. -/
theorem first_null (slot : nodes 0 = none) : first self answers nodes = [⟨none, false⟩] := by
  simp [first, retries, slot]

/-- The first attempts if the local node is the first. Its reply is a
refusal, so the second is guarded. -/
theorem first_local (slot : nodes 0 = some self) :
    first self answers nodes = [⟨some self, false⟩, ⟨nodes 1, true⟩] := by
  simp [first, retries, slot]

/-- The first attempts if another node is the first and fails inside its
call. -/
theorem first_rejected {node : Node} (slot : nodes 0 = some node) (other : node ≠ self)
    (rejected : answers.rejectsInside node = true) :
    first self answers nodes = [⟨some node, false⟩, ⟨nodes 1, answers.refuses node⟩] := by
  simp [first, retries, slot, other, rejected]

/-- The first attempt if another node is the first and does not fail inside
its call. -/
theorem first_plain {node : Node} (slot : nodes 0 = some node) (other : node ≠ self)
    (plain : answers.rejectsInside node = false) :
    first self answers nodes = [⟨some node, false⟩] := by
  simp [first, retries, slot, other, plain]

end First

end Attempt

end Sopmq
