import Mathlib.Data.List.OfFn
import Sopmq.ClusterEndpoint
import Sopmq.KeyedMap
import Sopmq.Machine
import Sopmq.SortedMap

/-!
# The endpoints of a client's cluster

`cluster` shares its endpoints between a vector of live ones and a set of dead ones. Both hold
pointers to the same objects, and the set is iterated in the order of the addresses, which is
arbitrary. The objects are allocated while all the earlier ones exist, so that their addresses are
distinct even where the endpoints are not.

`std::remove` leaves unspecified values after the elements it keeps, and the single-iterator
`erase` takes away the first of them only; it is undefined where there is none. Each of these
values is a parameter, and the undefined case is the absence of a result.
-/

namespace Sopmq

universe u

/-- `cluster`: the objects at their addresses, and the two collections of
pointers to them. The set of dead ones is a sorted map to nothing, in the
order of the addresses. -/
structure ClientCluster (Ptr : Type u) [LinearOrder Ptr] where
  heap : KeyedMap Ptr ClusterEndpoint
  liveEndpoints : List Ptr
  deadEndpoints : SortedMap Ptr Unit

/-- What `std::make_shared` finds for a number of objects: distinct
addresses, and the contents of the storage that the constructors do not
set. -/
structure Allocation (Ptr : Type u) (count : Nat) where
  address : Fin count → Ptr
  distinct : Function.Injective address
  storage : Fin count → Int

namespace ClientCluster

variable {Ptr : Type u} [LinearOrder Ptr]

/-- The objects made for the endpoints of a collection, one for each entry,
also where two entries are the same endpoint. -/
def makeShared (epCol : List Endpoint) (allocation : Allocation Ptr epCol.length) :
    KeyedMap Ptr ClusterEndpoint where
  entries := List.ofFn fun i =>
    (allocation.address i, ClusterEndpoint.create (epCol.get i) (allocation.storage i))
  distinct := by
    rw [List.map_ofFn]
    exact List.nodup_ofFn.mpr allocation.distinct

/-- `cluster(epCol)`: all endpoints are live at first, in the order in which
they were given. -/
def create (epCol : List Endpoint) (allocation : Allocation Ptr epCol.length) :
    ClientCluster Ptr where
  heap := makeShared epCol allocation
  liveEndpoints := List.ofFn allocation.address
  deadEndpoints := SortedMap.empty

/-- The elements that `std::remove` keeps, in their order: those that are
not the given one. -/
def kept (items : List Ptr) (ep : Ptr) : List Ptr := items.filter (fun item => decide (item ≠ ep))

/-- `std::remove` on a whole vector: the kept elements, and unspecified ones
up to the old size, since the vector itself is not made smaller. -/
def remove (leftover : Nat → Ptr) (items : List Ptr) (ep : Ptr) : List Ptr :=
  kept items ep ++ (List.range (items.length - (kept items ep).length)).map leftover

/-- `items.erase(std::remove(items.begin(), items.end(), ep))`: the first of
the unspecified elements is erased. Where there is none the iterator is the
end, and to erase that is undefined. -/
def eraseRemoved (leftover : Nat → Ptr) (items : List Ptr) (ep : Ptr) : Option (List Ptr) :=
  if (kept items ep).length < items.length then
    some ((remove leftover items ep).eraseIdx (kept items ep).length)
  else none

/-- `cluster::kill_endpoint`, at a time. An endpoint that is dead already is
left alone, with the time of its failure. -/
def killEndpoint (self : ClientCluster Ptr) (ep : Ptr) (now : Time) (leftover : Nat → Ptr) :
    Option (ClientCluster Ptr) :=
  if self.deadEndpoints.find ep = none then
    (eraseRemoved leftover self.liveEndpoints ep).map fun live =>
      { heap := self.heap.adjust ep fun object => object.markFailed now
        liveEndpoints := live
        deadEndpoints := self.deadEndpoints.emplace ep () }
  else some self

/-- An object is ready for a retry at the time its clock is read. Each
object reads the clock for itself. -/
def ready (clock : Ptr → Time) (heap : KeyedMap Ptr ClusterEndpoint) (ep : Ptr) : Bool :=
  (heap.find ep).any fun object => object.readyForRetry (clock ep)

/-- The first loop of `cluster::check_for_expired_deaths`: the ready ones
are marked up and collected. -/
def collectRetries (clock : Ptr → Time) (heap : KeyedMap Ptr ClusterEndpoint) :
    List Ptr → KeyedMap Ptr ClusterEndpoint × List Ptr
  | [] => (heap, [])
  | ep :: rest =>
      if ready clock heap ep then
        let collected := collectRetries clock (heap.adjust ep ClusterEndpoint.markUp) rest
        (collected.1, ep :: collected.2)
      else collectRetries clock heap rest

/-- The body of its second loop: a collected endpoint goes from the dead
ones to the end of the live ones. -/
def revive (self : ClientCluster Ptr) (ep : Ptr) : ClientCluster Ptr :=
  { self with
    deadEndpoints := self.deadEndpoints.erase ep
    liveEndpoints := self.liveEndpoints ++ [ep] }

/-- `cluster::check_for_expired_deaths`, with the time at which each object
reads its clock. The second loop runs over what the first one has collected,
so the set is not changed while it is iterated. -/
def checkForExpiredDeaths (self : ClientCluster Ptr) (clock : Ptr → Time) : ClientCluster Ptr :=
  let collected := collectRetries clock self.heap self.deadEndpoints.keyList
  collected.2.foldl revive { self with heap := collected.1 }

/-- A call on a cluster, with what the call finds: the time, the leftovers
of `std::remove`, and the readings of the clock. -/
inductive Event (Ptr : Type u) where
  | kill (ep : Ptr) (now : Time) (leftover : Nat → Ptr)
  | check (clock : Ptr → Time)

/-- A cluster after a call; only its own endpoints are killed. A call that
is undefined has no next state. -/
def step (self : ClientCluster Ptr) : Event Ptr → Option (ClientCluster Ptr)
  | .kill ep now leftover =>
      if (self.heap.find ep).isSome then self.killEndpoint ep now leftover else none
  | .check clock => some (self.checkForExpiredDeaths clock)

/-- Among distinct elements `std::remove` keeps all but the given one, so it
is the erasure of one element. -/
theorem kept_eq_erase (items : List Ptr) (ep : Ptr) (distinct : items.Nodup) :
    kept items ep = items.erase ep := by
  rw [distinct.erase_eq_filter, kept]
  exact List.filter_congr fun item _ => Bool.eq_iff_iff.mpr (by simp)

/-- Where the endpoint occurs once, the erasure is defined and takes away
that endpoint only. One element is left over, and that is the one erased. -/
theorem eraseRemoved_of_mem (leftover : Nat → Ptr) (items : List Ptr) (ep : Ptr)
    (distinct : items.Nodup) (member : ep ∈ items) :
    eraseRemoved leftover items ep = some (items.erase ep) := by
  have shorter := List.length_erase_of_mem member
  have occupied := List.length_pos_of_mem member
  have single : items.length - (items.erase ep).length = 1 := by omega
  rw [eraseRemoved, remove, kept_eq_erase items ep distinct, if_pos (by omega), single,
    List.eraseIdx_append_of_length_le (Nat.le_refl _)]
  simp

/-- The two collections share out the objects, and the failed ones are the
dead ones. This is what every call keeps; the rest of the bookkeeping
follows from it. -/
structure Balanced (addresses : List Ptr) (cluster : ClientCluster Ptr) : Prop where
  objects : cluster.heap.entries.map Prod.fst = addresses
  shared : (cluster.liveEndpoints ++ cluster.deadEndpoints.keyList).Perm addresses
  failed : ∀ ep object, cluster.heap.find ep = some object →
    (object.isFailed = true ↔ ep ∈ cluster.deadEndpoints.keyList)

/-- No object is in both collections or twice in one, since the addresses
are distinct. -/
theorem Balanced.distinct {addresses : List Ptr} {cluster : ClientCluster Ptr}
    (balanced : Balanced addresses cluster) :
    (cluster.liveEndpoints ++ cluster.deadEndpoints.keyList).Nodup :=
  balanced.shared.nodup_iff.mpr (balanced.objects ▸ cluster.heap.distinct)

/-- An object that is not dead is live, as the two collections together hold
every object. -/
theorem Balanced.live {addresses : List Ptr} {cluster : ClientCluster Ptr}
    (balanced : Balanced addresses cluster) (ep : Ptr) (member : ep ∈ addresses)
    (alive : ep ∉ cluster.deadEndpoints.keyList) : ep ∈ cluster.liveEndpoints :=
  (List.mem_append.mp (balanced.shared.mem_iff.mpr member)).resolve_right alive

/-- Killing a dead endpoint changes nothing, also not the time of its last
failure. -/
theorem killEndpoint_of_dead (cluster : ClientCluster Ptr) (ep : Ptr) (now : Time)
    (leftover : Nat → Ptr) (dead : ep ∈ cluster.deadEndpoints.keyList) :
    cluster.killEndpoint ep now leftover = some cluster := by
  refine if_neg fun missing => ?_
  exact (cluster.deadEndpoints.find_eq_none_iff ep).mp missing dead

/-- Killing a live endpoint of a balanced cluster moves it to the dead ones.
The erasure is defined there, because a live endpoint occurs once. -/
theorem killEndpoint_of_live {addresses : List Ptr} (cluster : ClientCluster Ptr) (ep : Ptr)
    (now : Time) (leftover : Nat → Ptr) (balanced : Balanced addresses cluster)
    (live : ep ∈ cluster.liveEndpoints) :
    cluster.killEndpoint ep now leftover = some
      { heap := cluster.heap.adjust ep fun object => object.markFailed now
        liveEndpoints := cluster.liveEndpoints.erase ep
        deadEndpoints := cluster.deadEndpoints.emplace ep () } := by
  obtain ⟨distinct, -, apart⟩ := List.nodup_append.mp balanced.distinct
  have alive : ep ∉ cluster.deadEndpoints.keyList := fun dead => apart ep live ep dead rfl
  rw [killEndpoint, if_pos ((cluster.deadEndpoints.find_eq_none_iff ep).mpr alive),
    eraseRemoved_of_mem leftover cluster.liveEndpoints ep distinct live]
  rfl

/-- Killing an endpoint keeps the balance, whether it is live or dead. -/
theorem Balanced.kill {addresses : List Ptr} {cluster next : ClientCluster Ptr} {ep : Ptr}
    {now : Time} {leftover : Nat → Ptr} (balanced : Balanced addresses cluster)
    (member : ep ∈ addresses) (killed : cluster.killEndpoint ep now leftover = some next) :
    Balanced addresses next := by
  by_cases dead : ep ∈ cluster.deadEndpoints.keyList
  · rw [killEndpoint_of_dead cluster ep now leftover dead] at killed
    cases killed
    exact balanced
  · have live := balanced.live ep member dead
    have missing := (cluster.deadEndpoints.find_eq_none_iff ep).mpr dead
    have moved := cluster.deadEndpoints.keyList_emplace ep () missing
    rw [killEndpoint_of_live cluster ep now leftover balanced live] at killed
    cases killed
    refine ⟨?_, ?_, ?_⟩
    · rw [KeyedMap.keys_adjust, balanced.objects]
    · refine (moved.append_left _).trans (List.perm_middle.trans ?_)
      exact ((List.perm_cons_erase live).symm.append_right _).trans balanced.shared
    · intro other object found
      rw [KeyedMap.find_adjust] at found
      rw [moved.mem_iff, List.mem_cons]
      split at found
      · next same =>
        obtain ⟨before, -, rfl⟩ := Option.map_eq_some_iff.mp found
        exact iff_of_true rfl (.inl same)
      · next different => rw [balanced.failed other object found, or_iff_right different]

/-- Whether an object is ready does not depend on what happens to the
others. -/
theorem ready_adjust (clock : Ptr → Time) (heap : KeyedMap Ptr ClusterEndpoint) (ep other : Ptr)
    (change : ClusterEndpoint → ClusterEndpoint) (different : other ≠ ep) :
    ready clock (heap.adjust ep change) other = ready clock heap other := by
  rw [ready, heap.find_adjust, if_neg different, ready]

/-- The first loop at an endpoint that is ready: it is marked up, and
collected in front of what the rest of the loop collects. -/
theorem collectRetries_of_ready (clock : Ptr → Time) (heap : KeyedMap Ptr ClusterEndpoint)
    (ep : Ptr) (rest : List Ptr) (expired : ready clock heap ep = true) :
    collectRetries clock heap (ep :: rest) =
      ((collectRetries clock (heap.adjust ep ClusterEndpoint.markUp) rest).1,
        ep :: (collectRetries clock (heap.adjust ep ClusterEndpoint.markUp) rest).2) :=
  if_pos expired

/-- The first loop at an endpoint that is not ready passes it by. -/
theorem collectRetries_of_not_ready (clock : Ptr → Time) (heap : KeyedMap Ptr ClusterEndpoint)
    (ep : Ptr) (rest : List Ptr) (waiting : ¬ready clock heap ep = true) :
    collectRetries clock heap (ep :: rest) = collectRetries clock heap rest :=
  if_neg waiting

/-- The first loop collects the ready ones among distinct endpoints, in
their order: marking one up does not change the others. -/
theorem collectRetries_retries (clock : Ptr → Time) (heap : KeyedMap Ptr ClusterEndpoint)
    (eps : List Ptr) (distinct : eps.Nodup) :
    (collectRetries clock heap eps).2 = eps.filter (ready clock heap) := by
  induction eps generalizing heap with
  | nil => rfl
  | cons ep rest inductionHypothesis =>
    obtain ⟨fresh, restDistinct⟩ := List.nodup_cons.mp distinct
    by_cases expired : ready clock heap ep = true
    · have others : ∀ other ∈ rest,
          ready clock (heap.adjust ep ClusterEndpoint.markUp) other = ready clock heap other :=
        fun other member => ready_adjust clock heap ep other _ fun same => fresh (same ▸ member)
      rw [collectRetries_of_ready clock heap ep rest expired, List.filter_cons_of_pos expired,
        inductionHypothesis _ restDistinct, List.filter_congr others]
    · rw [collectRetries_of_not_ready clock heap ep rest expired,
        List.filter_cons_of_neg expired, inductionHypothesis heap restDistinct]

/-- The first loop makes no object and destroys none. -/
theorem keys_collectRetries (clock : Ptr → Time) (heap : KeyedMap Ptr ClusterEndpoint)
    (eps : List Ptr) :
    (collectRetries clock heap eps).1.entries.map Prod.fst = heap.entries.map Prod.fst := by
  induction eps generalizing heap with
  | nil => rfl
  | cons ep rest inductionHypothesis =>
    by_cases expired : ready clock heap ep = true
    · rw [collectRetries_of_ready clock heap ep rest expired]
      exact (inductionHypothesis _).trans (heap.keys_adjust ep ClusterEndpoint.markUp)
    · rw [collectRetries_of_not_ready clock heap ep rest expired]
      exact inductionHypothesis heap

/-- The first loop marks up what it collects and nothing else. By induction
on the endpoints, of which none comes twice. -/
theorem find_collectRetries (clock : Ptr → Time) (heap : KeyedMap Ptr ClusterEndpoint)
    (eps : List Ptr) (distinct : eps.Nodup) (other : Ptr) :
    (collectRetries clock heap eps).1.find other =
      if other ∈ (collectRetries clock heap eps).2 then
        (heap.find other).map ClusterEndpoint.markUp
      else heap.find other := by
  induction eps generalizing heap with
  | nil => rfl
  | cons ep rest inductionHypothesis =>
    obtain ⟨fresh, restDistinct⟩ := List.nodup_cons.mp distinct
    by_cases expired : ready clock heap ep = true
    · rw [collectRetries_of_ready clock heap ep rest expired]
      simp only [List.mem_cons]
      rw [inductionHypothesis _ restDistinct, heap.find_adjust]
      by_cases same : other = ep
      · have uncollected :
            ep ∉ (collectRetries clock (heap.adjust ep ClusterEndpoint.markUp) rest).2 := by
          rw [collectRetries_retries clock _ rest restDistinct]
          exact fun collected => fresh (List.mem_of_mem_filter collected)
        rw [same, if_neg uncollected, if_pos rfl, if_pos (.inl rfl)]
      · simp only [same, if_false, false_or]
    · rw [collectRetries_of_not_ready clock heap ep rest expired]
      exact inductionHypothesis heap restDistinct

/-- The second loop leaves the objects alone; it moves pointers only. -/
theorem heap_revived (cluster : ClientCluster Ptr) (retryEps : List Ptr) :
    (retryEps.foldl revive cluster).heap = cluster.heap := by
  induction retryEps generalizing cluster with
  | nil => rfl
  | cons ep rest inductionHypothesis => exact inductionHypothesis (cluster.revive ep)

/-- The second loop puts the collected endpoints at the end of the live
ones, in their order. -/
theorem liveEndpoints_revived (cluster : ClientCluster Ptr) (retryEps : List Ptr) :
    (retryEps.foldl revive cluster).liveEndpoints = cluster.liveEndpoints ++ retryEps := by
  induction retryEps generalizing cluster with
  | nil => exact (List.append_nil _).symm
  | cons ep rest inductionHypothesis =>
    rw [List.foldl_cons, inductionHypothesis, revive, List.append_assoc, List.singleton_append]

/-- And it takes them, and no others, away from the dead ones. -/
theorem deadEndpoints_revived (cluster : ClientCluster Ptr) (retryEps : List Ptr) :
    (retryEps.foldl revive cluster).deadEndpoints.keyList =
      cluster.deadEndpoints.keyList.filter (fun ep => decide (ep ∉ retryEps)) := by
  induction retryEps generalizing cluster with
  | nil => simp
  | cons ep rest inductionHypothesis =>
    rw [List.foldl_cons, inductionHypothesis, revive, SortedMap.keyList_erase, List.filter_filter]
    refine List.filter_congr fun other _ => ?_
    simp only [List.mem_cons, not_or, Bool.decide_and, Bool.and_comm]

/-- A check for expired deaths keeps the balance.

Proof: the first loop marks up the ready ones among the dead and the second
moves just these, so that the dead are split into those moved and those
left. -/
theorem Balanced.check {addresses : List Ptr} {cluster : ClientCluster Ptr}
    (balanced : Balanced addresses cluster) (clock : Ptr → Time) :
    Balanced addresses (cluster.checkForExpiredDeaths clock) := by
  have distinct := cluster.deadEndpoints.keyList_nodup
  have collected := collectRetries_retries clock cluster.heap _ distinct
  have left : cluster.deadEndpoints.keyList.filter
      (fun ep => decide (ep ∉ (collectRetries clock cluster.heap
        cluster.deadEndpoints.keyList).2)) =
      cluster.deadEndpoints.keyList.filter (fun ep => !ready clock cluster.heap ep) := by
    refine List.filter_congr fun ep member => ?_
    rw [collected]
    simp [member]
  refine ⟨?_, ?_, ?_⟩
  · rw [checkForExpiredDeaths, heap_revived]
    exact (keys_collectRetries clock cluster.heap _).trans balanced.objects
  · rw [checkForExpiredDeaths, liveEndpoints_revived, deadEndpoints_revived, left, collected,
      List.append_assoc]
    exact ((List.filter_append_perm _ _).append_left _).trans balanced.shared
  · intro ep object found
    rw [checkForExpiredDeaths, heap_revived, find_collectRetries clock _ _ distinct] at found
    rw [checkForExpiredDeaths, deadEndpoints_revived, List.mem_filter, decide_eq_true_iff]
    split at found
    · next retried =>
      obtain ⟨before, -, rfl⟩ := Option.map_eq_some_iff.mp found
      exact iff_of_false Bool.false_ne_true fun dead => dead.2 retried
    · next waiting => rw [balanced.failed ep object found, and_iff_left waiting]

/-- A new cluster is balanced: all its objects are live, and none has
failed. -/
theorem balanced_create (epCol : List Endpoint) (allocation : Allocation Ptr epCol.length) :
    Balanced (List.ofFn allocation.address) (create epCol allocation) := by
  refine ⟨List.map_ofFn, ?_, ?_⟩
  · exact (List.append_nil _).symm ▸ List.Perm.refl _
  · intro ep object found
    have member := ((create epCol allocation).heap.mem_entries_iff ep object).mpr found
    obtain ⟨i, same⟩ := (List.mem_ofFn' _ _).mp member
    cases same
    exact iff_of_false Bool.false_ne_true (by simp [create, SortedMap.keyList, SortedMap.empty])

/-- Every call keeps the balance, in which the undefined erasure does not
occur. -/
theorem Balanced.step {addresses : List Ptr} {before after : ClientCluster Ptr} {event : Event Ptr}
    (balanced : Balanced addresses before) (moved : before.step event = some after) :
    Balanced addresses after := by
  cases event with
  | kill ep now leftover =>
    obtain ⟨own, killed⟩ := Option.ite_none_right_eq_some.mp moved
    have member := (before.heap.find_isSome_iff ep).mp own
    exact balanced.kill (balanced.objects ▸ member) killed
  | check clock =>
    cases moved
    exact balanced.check clock

/-- Every cluster that calls lead to is balanced, over the addresses that it
was built with. -/
theorem balanced_of_reaches (epCol : List Endpoint) (allocation : Allocation Ptr epCol.length)
    (cluster : ClientCluster Ptr)
    (reached : Machine.Reaches step (create epCol allocation) cluster) :
    Balanced (List.ofFn allocation.address) cluster :=
  reached.invariant (fun last : ClientCluster Ptr => Balanced (List.ofFn allocation.address) last)
    (fun _ _ _ balanced moved => balanced.step moved) (balanced_create epCol allocation)

/-- The bookkeeping of a cluster over the objects at given addresses, in the
terms of its two collections. -/
structure Bookkept {count : Nat} (address : Fin count → Ptr) (cluster : ClientCluster Ptr) :
    Prop where
  /-- Each object is in exactly one of the collections, and once among the
  live ones. -/
  exactlyOne : ∀ i,
    (cluster.liveEndpoints.count (address i) = 1 ∧
      address i ∉ cluster.deadEndpoints.keyList) ∨
    (address i ∉ cluster.liveEndpoints ∧ address i ∈ cluster.deadEndpoints.keyList)
  /-- Nothing else is in either of them. -/
  noOther : ∀ ep, ep ∈ cluster.liveEndpoints ∨ ep ∈ cluster.deadEndpoints.keyList →
    ∃ i, address i = ep
  /-- An object is failed when it is dead. -/
  failed : ∀ i, ∃ object, cluster.heap.find (address i) = some object ∧
    (object.isFailed = true ↔ address i ∈ cluster.deadEndpoints.keyList)
  /-- Killing a dead object changes nothing. -/
  killDead : ∀ i now leftover, address i ∈ cluster.deadEndpoints.keyList →
    cluster.killEndpoint (address i) now leftover = some cluster
  /-- Killing a live object erases it and no other. -/
  killLive : ∀ i now leftover, address i ∈ cluster.liveEndpoints →
    eraseRemoved leftover cluster.liveEndpoints (address i) =
      some (cluster.liveEndpoints.erase (address i)) ∧
    ∃ next, cluster.killEndpoint (address i) now leftover = some next ∧
      next.liveEndpoints = cluster.liveEndpoints.erase (address i)

/-- An object of a balanced cluster is live once or dead, and not both. -/
theorem Balanced.exactlyOne {addresses : List Ptr} {cluster : ClientCluster Ptr}
    (balanced : Balanced addresses cluster) (ep : Ptr) (member : ep ∈ addresses) :
    (cluster.liveEndpoints.count ep = 1 ∧ ep ∉ cluster.deadEndpoints.keyList) ∨
      (ep ∉ cluster.liveEndpoints ∧ ep ∈ cluster.deadEndpoints.keyList) := by
  obtain ⟨distinct, -, apart⟩ := List.nodup_append.mp balanced.distinct
  by_cases dead : ep ∈ cluster.deadEndpoints.keyList
  · exact .inr ⟨fun live => apart ep live ep dead rfl, dead⟩
  · exact .inl ⟨List.count_eq_one_of_mem distinct (balanced.live ep member dead), dead⟩

/-- After any sequence of calls, at any times, on a cluster built from any
endpoints, each object is live once or dead, the failed ones are the dead
ones, killing a dead one changes nothing and killing a live one erases just
that one. -/
theorem live_dead_bookkeeping (epCol : List Endpoint) (allocation : Allocation Ptr epCol.length)
    (cluster : ClientCluster Ptr)
    (reached : Machine.Reaches step (create epCol allocation) cluster) :
    Bookkept allocation.address cluster := by
  have balanced := balanced_of_reaches epCol allocation cluster reached
  have own : ∀ i, allocation.address i ∈ List.ofFn allocation.address := fun i =>
    (List.mem_ofFn' _ _).mpr ⟨i, rfl⟩
  refine ⟨fun i => balanced.exactlyOne _ (own i), ?_, ?_, ?_, ?_⟩
  · intro ep member
    exact (List.mem_ofFn' _ _).mp (balanced.shared.mem_iff.mp (List.mem_append.mpr member))
  · intro i
    have present := (cluster.heap.find_isSome_iff _).mpr (balanced.objects ▸ own i)
    obtain ⟨object, found⟩ := Option.isSome_iff_exists.mp present
    exact ⟨object, found, balanced.failed _ object found⟩
  · intro i now leftover dead
    exact killEndpoint_of_dead cluster _ now leftover dead
  · intro i now leftover live
    have distinct := (List.nodup_append.mp balanced.distinct).1
    exact ⟨eraseRemoved_of_mem leftover _ _ distinct live, _,
      killEndpoint_of_live cluster _ now leftover balanced live, rfl⟩

/-- Two objects for one endpoint, at the addresses 0 and 1. The collections
tell them apart by the address alone. -/
def twins : Allocation Nat [ClusterEndpoint.localhost, ClusterEndpoint.localhost].length where
  address := Fin.val
  distinct := Fin.val_injective
  storage := fun _ => 0

/-- Both objects are killed, the first one again, and it alone has expired
at the check. The second kill of it does not count as a failure. -/
def killsAndCheck : List (Event Nat) :=
  [.kill 0 0 id, .kill 1 (30 * 10 ^ 9) id, .kill 0 (40 * 10 ^ 9) id, .check fun _ => 60 * 10 ^ 9]

/-- The bookkeeping after this run, in which one object is live and the
other dead. -/
theorem bookkept_after_kills_and_check :
    ∃ cluster, Machine.run step (create _ twins) killsAndCheck = some cluster ∧
      cluster.liveEndpoints = [0] ∧ cluster.deadEndpoints.keyList = [1] ∧
      Bookkept twins.address cluster := by
  have ran : ∃ cluster, Machine.run step (create _ twins) killsAndCheck = some cluster ∧
      cluster.liveEndpoints = [0] ∧ cluster.deadEndpoints.keyList = [1] := ⟨_, rfl, rfl, rfl⟩
  obtain ⟨cluster, ran, live, dead⟩ := ran
  have reached := Machine.reaches_of_run step (create _ twins) cluster killsAndCheck ran
  exact ⟨cluster, ran, live, dead, live_dead_bookkeeping _ twins cluster reached⟩

end ClientCluster

end Sopmq
