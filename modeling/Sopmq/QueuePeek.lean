import Sopmq.DominanceOrder

/-!
# Resuming a consumer

`peek` is meant to return the messages after the last one that a consumer has seen.
It starts from the iterator that `find` returns for the stamp of that message, up to
the end. If the message is still there, it is returned once more; if it is gone, so
that `find` returns the end, nothing is returned. The answer is right only when the
message is gone and nothing came after it.

The stamps are assumed to be strictly ordered by the comparator. The multimap then
keeps the messages in increasing order of their stamps, in every state of a run in
which the stamps given are so ordered.
-/

namespace Sopmq

/-- Every two of the stamps are ordered by the comparator, and the
comparator is a strict order on them. -/
structure StrictlyOrdered {RF : Nat} (stamps : List (VectorClock RF)) : Prop where
  ordered : stamps.Pairwise (fun a b => VectorClock.Less a b ∨ VectorClock.Less b a)
  irreflexive : ∀ a ∈ stamps, ¬ VectorClock.Less a a
  transitive : ∀ a ∈ stamps, ∀ b ∈ stamps, ∀ c ∈ stamps,
    VectorClock.Less a b → VectorClock.Less b c → VectorClock.Less a c

namespace StrictlyOrdered

variable {RF : Nat} {stamps : List (VectorClock RF)}

/-- Of two such stamps at most one is less than the other, or it would be
less than itself. -/
theorem asymmetric (strict : StrictlyOrdered stamps) {a b : VectorClock RF} (aIn : a ∈ stamps)
    (bIn : b ∈ stamps) (less : VectorClock.Less a b) : ¬ VectorClock.Less b a := fun greater =>
  strict.irreflexive a aIn (strict.transitive a aIn b bIn a aIn less greater)

/-- Some of the stamps, in any order, are strictly ordered as well. -/
theorem subperm {fewer : List (VectorClock RF)} (strict : StrictlyOrdered stamps)
    (fewerThan : fewer.Subperm stamps) : StrictlyOrdered fewer where
  ordered := by
    obtain ⟨same, perm, sublist⟩ := fewerThan
    exact (perm.pairwise_iff Or.symm).mp (strict.ordered.sublist sublist)
  irreflexive := fun a aIn => strict.irreflexive a (fewerThan.subset aIn)
  transitive := fun a aIn b bIn c cIn => strict.transitive a (fewerThan.subset aIn) b
    (fewerThan.subset bIn) c (fewerThan.subset cIn)

end StrictlyOrdered

namespace MessageQueue

variable {RF : Nat}

/-- The stamps of the filed messages, in the order of the multimap. These
are the keys, and not the clocks of the messages. -/
def stamps (queue : MessageQueue RF) : List (VectorClock RF) :=
  queue.queuedMessages.map QueueEntry.key

/-- `peek` returns the messages whose stamp is greater than the given one,
in increasing order. -/
def Resumes (queue : MessageQueue RF) (lastMessage : VectorClock RF) : Prop :=
  ∃ later : List (QueueEntry RF),
    later = queue.queuedMessages.filter
        (fun entry => decide (VectorClock.Less lastMessage entry.key)) ∧
      later.Pairwise (fun x y => VectorClock.Less x.key y.key) ∧
      queue.peek lastMessage = later.map QueueEntry.message

/-- A multimap of strictly ordered stamps holds them in increasing order.
What is not greater is less, as no two are alike. -/
theorem increasing (queue : MessageQueue RF) (strict : StrictlyOrdered queue.stamps)
    (sorted : queue.queuedMessages.Pairwise (fun x y => ¬ VectorClock.Less y.key x.key)) :
    queue.queuedMessages.Pairwise (fun x y => VectorClock.Less x.key y.key) := by
  have ordered := List.pairwise_map.mp strict.ordered
  refine (ordered.and sorted).imp ?_
  rintro x y ⟨either, notAbove⟩
  exact either.resolve_right notAbove

/-- The search for a stamp that is there ends at its message, with the
greater ones behind it. By induction on the entries. -/
theorem findStamp_present (lastMessage : VectorClock RF) (entries : List (QueueEntry RF))
    (strict : StrictlyOrdered (entries.map QueueEntry.key))
    (increasing : entries.Pairwise (fun x y => VectorClock.Less x.key y.key))
    (present : lastMessage ∈ entries.map QueueEntry.key) :
    ∃ entry, findStamp lastMessage entries =
      entry :: entries.filter (fun entry => decide (VectorClock.Less lastMessage entry.key)) := by
  induction entries with
  | nil => exact absurd present List.not_mem_nil
  | cons first rest inductionHypothesis =>
    obtain ⟨below, restIncreasing⟩ := List.pairwise_cons.mp increasing
    have firstIn : first.key ∈ (first :: rest).map QueueEntry.key := List.mem_cons_self
    rcases List.mem_cons.mp present with rfl | later
    · have notBelow := strict.irreflexive _ firstIn
      have all : rest.filter (fun entry => decide (VectorClock.Less first.key entry.key)) = rest :=
        List.filter_eq_self.mpr fun entry member => decide_eq_true (below entry member)
      exact ⟨first, by simp [findStamp, notBelow, all]⟩
    · obtain ⟨entry, member, same⟩ := List.mem_map.mp later
      have firstBelow : VectorClock.Less first.key lastMessage := same ▸ below entry member
      have notAbove := strict.asymmetric firstIn present firstBelow
      obtain ⟨found, rest'⟩ := inductionHypothesis
        (strict.subperm (List.sublist_cons_self _ _).subperm) restIncreasing later
      exact ⟨found, by simp [findStamp, firstBelow, notAbove, rest']⟩

/-- The search for a stamp that is not there ends at the end, although
greater ones may be there. -/
theorem findStamp_absent (lastMessage : VectorClock RF) (entries : List (QueueEntry RF))
    (apart : ∀ entry ∈ entries,
      VectorClock.Less lastMessage entry.key ∨ VectorClock.Less entry.key lastMessage) :
    findStamp lastMessage entries = [] := by
  induction entries with
  | nil => rfl
  | cons first rest inductionHypothesis =>
    have later := inductionHypothesis fun entry member =>
      apart entry (List.mem_cons_of_mem first member)
    rw [findStamp]
    split
    · exact later
    · next notBelow =>
      rw [if_pos ((apart first List.mem_cons_self).resolve_right notBelow)]

/-- For strictly ordered stamps, `peek` returns what it should exactly when
no message with the given stamp is in the queue and none with a greater one
is. -/
theorem peek_resumes_iff (queue : MessageQueue RF) (lastMessage : VectorClock RF)
    (sorted : queue.queuedMessages.Pairwise (fun x y => ¬ VectorClock.Less y.key x.key))
    (strict : StrictlyOrdered queue.stamps)
    (fits : lastMessage ∈ queue.stamps ∨ StrictlyOrdered (lastMessage :: queue.stamps)) :
    queue.Resumes lastMessage ↔
      lastMessage ∉ queue.stamps ∧
        ∀ stamp ∈ queue.stamps, ¬ VectorClock.Less lastMessage stamp := by
  have absent (missing : lastMessage ∉ queue.stamps) :
      findStamp lastMessage queue.queuedMessages = [] := by
    have ordered := (List.pairwise_cons.mp (fits.resolve_left missing).ordered).1
    exact findStamp_absent _ _ fun entry member => ordered _ (List.mem_map_of_mem member)
  constructor
  · rintro ⟨later, rfl, _, returned⟩
    have missing : lastMessage ∉ queue.stamps := by
      intro present
      obtain ⟨entry, found⟩ := findStamp_present lastMessage queue.queuedMessages strict
        (queue.increasing strict sorted) present
      rw [peek, found] at returned
      exact absurd (congrArg List.length returned) (by simp)
    refine ⟨missing, fun stamp member greater => ?_⟩
    obtain ⟨entry, filed, rfl⟩ := List.mem_map.mp member
    rw [peek, absent missing] at returned
    have none := List.map_eq_nil_iff.mp returned.symm
    exact absurd (decide_eq_true greater) (List.filter_eq_nil_iff.mp none entry filed)
  · rintro ⟨missing, last⟩
    have none : queue.queuedMessages.filter
        (fun entry => decide (VectorClock.Less lastMessage entry.key)) = [] :=
      List.filter_eq_nil_iff.mpr fun entry member => by
        simpa using last entry.key (List.mem_map_of_mem member)
    exact ⟨[], none.symm, List.Pairwise.nil, by rw [peek, absent missing]⟩

/-- The queue of two messages without the one of the later stamp, which has
been claimed. -/
def withoutLater : MessageQueue 2 :=
  (QueueRun.chainRun.queue.claim (Uuid.constant 2)).getD QueueRun.chainRun.queue

/-- The queue of two messages without the one of the earlier stamp, which
has been claimed. -/
def withoutEarlier : MessageQueue 2 :=
  (QueueRun.chainRun.queue.claim (Uuid.constant 1)).getD QueueRun.chainRun.queue

/-- The last message was seen and claimed, and nothing came after it. The
empty answer is then right. -/
theorem peek_resumes_nothing_left :
    withoutLater.stamps = [QueueRun.earlierStamp] ∧
      withoutLater.Resumes QueueRun.laterStamp := by
  have ordered : StrictlyOrdered [QueueRun.laterStamp, QueueRun.earlierStamp] :=
    ⟨by decide, by decide, by decide⟩
  have single : StrictlyOrdered [QueueRun.earlierStamp] := ⟨by decide, by decide, by decide⟩
  refine ⟨by decide, ?_⟩
  exact (peek_resumes_iff withoutLater QueueRun.laterStamp (by decide) single (Or.inr ordered)).mpr
    ⟨by decide, by decide⟩

/-- A consumer that has seen the earlier message gets it once more, and gets
nothing once it has been claimed, although the later message is there in
both cases. -/
theorem peek_repeats_and_loses :
    StrictlyOrdered QueueRun.chainRun.queue.stamps ∧
      QueueRun.chainRun.queue.stamps = [QueueRun.earlierStamp, QueueRun.laterStamp] ∧
      (QueueRun.chainRun.queue.peek QueueRun.earlierStamp).map QueuedMessage.id =
        [Uuid.constant 1, Uuid.constant 2] ∧
      ¬ QueueRun.chainRun.queue.Resumes QueueRun.earlierStamp ∧
      withoutEarlier.stamps = [QueueRun.laterStamp] ∧
      withoutEarlier.peek QueueRun.earlierStamp = [] ∧
      ¬ withoutEarlier.Resumes QueueRun.earlierStamp := by
  refine ⟨⟨by decide, by decide, by decide⟩, by decide, by decide, ?_, by decide, by decide, ?_⟩
  · rintro ⟨later, rfl, _, returned⟩
    exact absurd (congrArg List.length returned) (by decide)
  · rintro ⟨later, rfl, _, returned⟩
    exact absurd (congrArg List.length returned) (by decide)

/-- A stamp that is strictly ordered with those filed keeps the multimap
increasing, wherever it is placed. -/
theorem place_increasing (entry : QueueEntry RF) (entries : List (QueueEntry RF))
    (strict : StrictlyOrdered ((entry :: entries).map QueueEntry.key))
    (increasing : entries.Pairwise (fun x y => VectorClock.Less x.key y.key)) :
    (Arrival.place QueueEntry.less entry entries).Pairwise
      (fun x y => VectorClock.Less x.key y.key) := by
  have member {x : QueueEntry RF} (xIn : x ∈ entry :: entries) :
      x.key ∈ (entry :: entries).map QueueEntry.key := List.mem_map_of_mem xIn
  have asymmetric : Arrival.Asymmetric QueueEntry.less (entry :: entries) := by
    intro x xIn y yIn less
    exact decide_eq_false (strict.asymmetric (member xIn) (member yIn) (of_decide_eq_true less))
  have symmetric : Std.Symm (fun x y : QueueEntry RF =>
      VectorClock.Less x.key y.key ∨ VectorClock.Less y.key x.key) := ⟨fun _ _ => Or.symm⟩
  have orders : Arrival.Orders QueueEntry.less (entry :: entries) := by
    intro x xIn y yIn different
    have either := (List.pairwise_map.mp strict.ordered).forall xIn yIn different
    exact either.imp decide_eq_true decide_eq_true
  have acyclic : Arrival.Acyclic QueueEntry.less (entry :: entries) := by
    rintro x xIn y yIn z zIn ⟨first, second, third⟩
    have outer := strict.transitive _ (member xIn) _ (member yIn) _ (member zIn)
      (of_decide_eq_true first) (of_decide_eq_true second)
    exact strict.asymmetric (member xIn) (member zIn) outer (of_decide_eq_true third)
  have fresh : entry ∉ entries := by
    intro again
    have either := (List.pairwise_cons.mp strict.ordered).1 _ (List.mem_map_of_mem again)
    exact strict.irreflexive _ (member List.mem_cons_self) (either.elim id id)
  have placed := Arrival.place_ordered QueueEntry.less (entry :: entries) asymmetric orders acyclic
    entry entries List.mem_cons_self (fun x xIn => List.mem_cons_of_mem _ xIn) fresh
    (increasing.imp fun less => decide_eq_true less)
  exact placed.imp fun less => of_decide_eq_true less

end MessageQueue

namespace QueueRun

variable {RF : Nat}

/-- The stamps filed are among those given in the run, and in increasing
order if these are strictly ordered. -/
structure Increasing (run : QueueRun RF) : Prop where
  given : run.queue.stamps.Subperm (run.stamped.map Prod.snd)
  increasing : StrictlyOrdered (run.stamped.map Prod.snd) →
    run.queue.queuedMessages.Pairwise (fun x y => VectorClock.Less x.key y.key)

/-- Taking messages away keeps the order. The stamps that are left are still
among those given. -/
theorem Increasing.taken {run after : QueueRun RF} (ordered : run.Increasing)
    (fewer : after.queue.queuedMessages.Sublist run.queue.queuedMessages)
    (stamped : after.stamped = run.stamped) : after.Increasing where
  given := stamped ▸ (fewer.map QueueEntry.key).subperm.trans ordered.given
  increasing := fun strict => (ordered.increasing (stamped ▸ strict)).sublist fewer

/-- Stamping keeps the order: the new stamp is among those given, and is
placed between the others. -/
theorem Increasing.stamp {run : QueueRun RF} (ordered : run.Increasing) (now : Time) (id : Uuid)
    (vclock : VectorClock RF) : (run.perform now (.stamp id vclock)).Increasing := by
  cases found : run.queue.unstampedMessages.find id with
  | none =>
    rw [run.perform_stamp_absent now id vclock found]
    exact ordered
  | some message =>
    have filed : (run.perform now (.stamp id vclock)).queue.queuedMessages =
        Arrival.place QueueEntry.less
          ⟨run.queue.nextHandle, vclock, message.updateLocalTimestamp now⟩
          run.queue.queuedMessages := by
      simp [perform, MessageQueue.stamp, found]
    have stamped : (run.perform now (.stamp id vclock)).stamped.map Prod.snd =
        run.stamped.map Prod.snd ++ [vclock] := by
      rw [run.perform_stamp_stamped now id vclock message found, List.map_append]
      rfl
    have grown : (vclock :: run.queue.stamps).Subperm (run.stamped.map Prod.snd ++ [vclock]) :=
      ((List.subperm_cons vclock).mpr ordered.given).trans
        (List.perm_append_singleton _ _).symm.subperm
    have placed := (Arrival.place_perm QueueEntry.less
      ⟨run.queue.nextHandle, vclock, message.updateLocalTimestamp now⟩
      run.queue.queuedMessages).map QueueEntry.key
    constructor
    · rw [MessageQueue.stamps, filed, stamped]
      exact placed.subperm.trans grown
    · rw [filed, stamped]
      intro strict
      exact MessageQueue.place_increasing _ _ (strict.subperm grown)
        (ordered.increasing (strict.subperm (List.sublist_append_left _ _).subperm))

/-- Every call keeps the order, since none but a stamp files anything. -/
theorem Increasing.consume {run after : QueueRun RF} (ordered : run.Increasing)
    (event : Time × ConsumerCall RF) (moved : run.consume event = some after) :
    after.Increasing := by
  obtain ⟨now, (⟨id, data, ttlSecs⟩ | ⟨id, vclock⟩ | _) | messageId⟩ := event
  · cases moved
    exact ordered.taken (List.Sublist.refl _) rfl
  · cases moved
    exact ordered.stamp now id vclock
  · cases moved
    refine ordered.taken ?_ rfl
    simp only [perform, MessageQueue.expireMessages, MessageQueue.expireQueued_fst]
    exact List.dropWhile_sublist _
  · obtain ⟨queue, claimed, rfl⟩ := Option.map_eq_some_iff.mp moved
    refine ordered.taken ?_ rfl
    rcases run.queue.claim_cases queue messageId claimed with
      ⟨_, rfl⟩ | ⟨handle, entry, _, _, rfl⟩
    · exact List.Sublist.refl _
    · exact List.filter_sublist

/-- In every state of a run whose stamps are strictly ordered, the multimap
holds its messages in increasing order of their stamps. -/
theorem consume_increasing (createdOn : Time) (queueId : UInt128) (run : QueueRun RF)
    (reached : Machine.Reaches QueueRun.consume (start createdOn queueId) run)
    (strict : StrictlyOrdered (run.stamped.map Prod.snd)) :
    run.queue.queuedMessages.Pairwise (fun x y => VectorClock.Less x.key y.key) := by
  have ordered : run.Increasing := by
    refine reached.invariant Increasing (fun _ event _ ordered moved =>
      ordered.consume event moved) ⟨List.Subperm.refl _, fun _ => List.Pairwise.nil⟩
  exact ordered.increasing strict

/-- The later stamp is given first, and the message with the earlier one is
in front all the same. -/
theorem consume_increasing_chain :
    chainRun.stamped.map Prod.snd = [laterStamp, earlierStamp] ∧
      chainRun.queue.queuedMessages.Pairwise (fun x y => VectorClock.Less x.key y.key) := by
  have ran : Machine.run consume (start 0 0)
      (chainCalls.map fun event => (event.1, .call event.2)) = some chainRun := rfl
  have strict : StrictlyOrdered (chainRun.stamped.map Prod.snd) :=
    ⟨by decide, by decide, by decide⟩
  exact ⟨by decide, consume_increasing 0 0 chainRun
    (Machine.reaches_of_run consume (start 0 0) chainRun _ ran) strict⟩

end QueueRun

end Sopmq
