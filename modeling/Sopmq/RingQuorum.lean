import Mathlib.Tactic.Tauto
import Sopmq.Ring

/-!
# Quorums of a key

`find_quorum_for_operation` shuffles the three replica positions of a key, keeps
the live ones and blanks repeated nodes. The result is characterised over all
rings, keys, liveness predicates and shuffles: when it is refused, which nodes it
holds, that any two of them share a node in their first two slots, and when it
consists of a single node.
-/

namespace Sopmq.Ring

variable (replicas : Fin 3 → Node) (isAlive : Node → Bool) (shuffle : Equiv.Perm (Fin 3))

/-- The live replica positions, in the order of the shuffle. A node that
holds two positions is in it twice. -/
def liveOrder : List (Fin 3) :=
  ((List.finRange 3).map shuffle).filter (fun p => isAlive (replicas p))

/-- The number of live replica positions, counted with repetition of
nodes. -/
def liveCount : Nat := (List.finRange 3).countP (fun p => isAlive (replicas p))

/-- The shuffle does not change how many positions are live. -/
theorem liveOrder_length : (liveOrder replicas isAlive shuffle).length =
    liveCount replicas isAlive := by
  rw [liveOrder, ← List.countP_eq_length_filter]
  exact (Equiv.Perm.map_finRange_perm shuffle).countP_eq _

/-- No position comes twice, as the shuffle is a permutation. -/
theorem liveOrder_nodup : (liveOrder replicas isAlive shuffle).Nodup :=
  ((List.nodup_finRange 3).map shuffle.injective).filter _

/-- The positions in it are those whose node is alive. -/
theorem mem_liveOrder (p : Fin 3) :
    p ∈ liveOrder replicas isAlive shuffle ↔ isAlive (replicas p) = true := by
  simp only [liveOrder, List.mem_filter, and_iff_right_iff_imp]
  intro _
  exact List.mem_map.mpr ⟨shuffle.symm p, List.mem_finRange _, shuffle.apply_symm_apply p⟩

/-- The selection loop writes the live nodes to the slots from the given one
on, and leaves the slots before. -/
theorem selectLive_eq (nodes : List Node) (outNodes : Fin 3 → Option Node) (i : Nat)
    (blank : ∀ slot : Fin 3, i ≤ slot.val → outNodes slot = none) :
    selectLive isAlive nodes outNodes i =
      (fun slot => if slot.val < i then outNodes slot
        else (nodes.filter isAlive)[slot.val - i]?, i + (nodes.filter isAlive).length) := by
  induction nodes generalizing outNodes i with
  | nil =>
    simp only [selectLive, List.filter_nil, List.getElem?_nil, List.length_nil, Nat.add_zero,
      Prod.mk.injEq, and_true]
    funext slot
    split
    · rfl
    · next beyond => exact blank slot (Nat.le_of_not_lt beyond)
  | cons node rest inductionHypothesis =>
    by_cases alive : isAlive node = true
    · have written : ∀ slot : Fin 3, i + 1 ≤ slot.val →
          (if slot.val = i then some node else outNodes slot) = none := by
        intro slot beyond
        rw [if_neg (by omega)]
        exact blank slot (by omega)
      simp only [selectLive, alive, if_true, inductionHypothesis _ _ written,
        List.filter_cons_of_pos, List.length_cons, Prod.mk.injEq]
      refine ⟨?_, by omega⟩
      funext slot
      rcases Nat.lt_trichotomy slot.val i with before | here | after
      · rw [if_pos (by omega), if_neg (by omega), if_pos before]
      · rw [if_pos (by omega), if_pos here, if_neg (by omega)]
        simp [here]
      · rw [if_neg (by omega), if_neg (by omega),
          show slot.val - i = slot.val - (i + 1) + 1 by omega]
        rfl
    · rw [selectLive, if_neg alive, List.filter_cons_of_neg alive]
      exact inductionHypothesis outNodes i blank

/-- The slots before repeated nodes are blanked: the live nodes in the order
of the shuffle. -/
def selected (slot : Fin 3) : Option Node :=
  ((liveOrder replicas isAlive shuffle)[slot.val]?).map replicas

variable (ring : Ring) (key : UInt128)

/-- The quorum of a key whose replicas are known: refused below two live
positions, and else the live nodes without repetitions. -/
theorem findQuorumForOperation_eq (found : ring.findNodesForKey key = .ok replicas) :
    ring.findQuorumForOperation isAlive shuffle key =
      if liveCount replicas isAlive < 2 then
        .error (.unavailable ("No quorum of nodes is up and available for key " ++
          toString key.val))
      else .ok (compress (selected replicas isAlive shuffle)) := by
  have live : (List.ofFn (replicas ∘ shuffle)).filter isAlive =
      (liveOrder replicas isAlive shuffle).map replicas := by
    rw [List.ofFn_eq_map, ← List.map_map, List.filter_map]
    rfl
  rw [findQuorumForOperation, found]
  simp only [bind, Except.bind, selectLive_eq isAlive _ _ 0 (fun _ _ => rfl), live, Nat.zero_add,
    List.length_map, liveOrder_length, Nat.not_lt_zero, if_false, Nat.sub_zero, List.getElem?_map]
  rfl

/-- Blanking the second slot, written out. -/
theorem update_second (a b c : Option Node) :
    Function.update ![a, b, c] 1 none = ![a, none, c] := by
  funext slot
  fin_cases slot <;> rfl

/-- Blanking the third slot, written out. -/
theorem update_third (a b c : Option Node) :
    Function.update ![a, b, c] 2 none = ![a, b, none] := by
  funext slot
  fin_cases slot <;> rfl

/-- The slots of a quorum whose first live positions hold the given nodes: a
slot is blank where it would repeat an earlier node. -/
def slots (first second : Node) (third : Option Node) : Fin 3 → Option Node :=
  ![some first, if second = first then none else some second,
    if third = some first ∨ third = some second then none else third]

/-- The successive comparisons blank a slot exactly when it repeats an
earlier node, though they compare with slots that are already blanked. -/
theorem compress_eq (first second : Node) (third : Option Node) :
    compress ![some first, some second, third] = slots first second third := by
  unfold compress slots
  by_cases repeats : second = first
  · subst repeats
    cases third with
    | none => simp [update_second, update_third]
    | some other =>
      by_cases again : other = second
      · simp [update_second, update_third, again]
      · simp [update_second, again, Ne.symm again]
  · by_cases again : third = some second
    · subst again
      simp [update_third, repeats, Ne.symm repeats]
    · have different : ¬ some second = third := fun same => again same.symm
      by_cases returns : third = some first
      · subst returns
        simp [update_third, repeats, Ne.symm repeats]
      · have different' : ¬ some first = third := fun same => returns same.symm
        simp [repeats, Ne.symm repeats, again, different, returns, different']

/-- The first two slots hold the first two nodes, in one slot if they are
the same. -/
theorem mem_first_slots (first second : Node) (third : Option Node) (node : Node) :
    (slots first second third 0 = some node ∨ slots first second third 1 = some node) ↔
      node = first ∨ node = second := by
  by_cases repeats : second = first <;> simp [slots, repeats, eq_comm]

/-- The slots hold each of the nodes, and no other. -/
theorem mem_slots (first second : Node) (third : Option Node) (node : Node) :
    (∃ slot, slots first second third slot = some node) ↔
      node = first ∨ node = second ∨ third = some node := by
  have three : (∃ slot, slots first second third slot = some node) ↔
      (slots first second third 0 = some node ∨ slots first second third 1 = some node) ∨
        slots first second third 2 = some node := by
    rw [Fin.exists_fin_succ, Fin.exists_fin_succ, Fin.exists_fin_one, or_assoc]
    rfl
  rw [three, mem_first_slots, or_assoc]
  by_cases repeats : third = some first ∨ third = some second
  · have blanked : slots first second third 2 ≠ some node := by simp [slots, repeats]
    rcases repeats with rfl | rfl <;> simp only [blanked, Option.some.injEq] <;> tauto
  · simp [slots, repeats]

/-- The third slot holds a node that is neither the first nor the second, or
none. -/
theorem third_slot_iff (first second : Node) (third : Option Node) :
    slots first second third 2 ≠ none ↔
      ∃ node, third = some node ∧ node ≠ first ∧ node ≠ second := by
  cases third with
  | none => simp [slots]
  | some node => simp [slots]

/-- No node is in two slots. -/
theorem slots_injective (first second : Node) (third : Option Node) (node : Node) (j k : Fin 3)
    (atJ : slots first second third j = some node) (atK : slots first second third k = some node) :
    j = k := by
  have zeroth : slots first second third 0 = some first := rfl
  have second' : ∀ held, slots first second third 1 = some held → held = second ∧ held ≠ first := by
    intro held
    by_cases repeats : second = first
    · simp [slots, repeats]
    · simp only [slots, repeats, Matrix.cons_val, if_false, Option.some.injEq]
      rintro rfl
      exact ⟨rfl, repeats⟩
  have third' : ∀ held, slots first second third 2 = some held →
      held ≠ first ∧ held ≠ second := by
    intro held
    by_cases repeats : third = some first ∨ third = some second
    · simp [slots, repeats]
    · simp only [slots, repeats, Matrix.cons_val, if_false]
      rintro rfl
      simpa using repeats
  match j, k with
  | 0, 0 | 1, 1 | 2, 2 => rfl
  | 0, 1 => exact absurd (Option.some.inj (zeroth.symm.trans atJ)).symm (second' node atK).2
  | 1, 0 => exact absurd (Option.some.inj (zeroth.symm.trans atK)).symm (second' node atJ).2
  | 0, 2 => exact absurd (Option.some.inj (zeroth.symm.trans atJ)).symm (third' node atK).1
  | 2, 0 => exact absurd (Option.some.inj (zeroth.symm.trans atK)).symm (third' node atJ).1
  | 1, 2 => exact absurd (second' node atJ).1 (third' node atK).2
  | 2, 1 => exact absurd (second' node atK).1 (third' node atJ).2

/-- A returned quorum has two live positions, and its slots are those of the
live nodes in the order of the shuffle. -/
theorem quorum_slots (outNodes : Fin 3 → Option Node)
    (found : ring.findNodesForKey key = .ok replicas)
    (returned : ring.findQuorumForOperation isAlive shuffle key = .ok outNodes) :
    ∃ p q rest, liveOrder replicas isAlive shuffle = p :: q :: rest ∧ p ≠ q ∧ rest.length ≤ 1 ∧
      outNodes = slots (replicas p) (replicas q) (rest.head?.map replicas) := by
  rw [findQuorumForOperation_eq replicas isAlive shuffle ring key found] at returned
  have enough : ¬ liveCount replicas isAlive < 2 := by
    intro few
    simp [few] at returned
  rw [if_neg enough] at returned
  have length := liveOrder_length replicas isAlive shuffle
  have distinct := liveOrder_nodup replicas isAlive shuffle
  have bound : (liveOrder replicas isAlive shuffle).length ≤ 3 := by
    simpa using List.Nodup.length_le_card distinct
  match order : liveOrder replicas isAlive shuffle with
  | [] => simp [order] at length; omega
  | [p] => simp [order] at length; omega
  | p :: q :: rest =>
    rw [order] at distinct bound
    have different : p ≠ q := by
      rintro rfl
      simp at distinct
    have short : rest.length ≤ 1 := by
      rw [List.length_cons, List.length_cons] at bound
      omega
    refine ⟨p, q, rest, rfl, different, short, ?_⟩
    have slotsBefore : selected replicas isAlive shuffle =
        ![some (replicas p), some (replicas q), rest.head?.map replicas] := by
      funext slot
      fin_cases slot <;> simp [selected, order, List.head?_eq_getElem?]
    rw [← Except.ok.inj returned, slotsBefore, compress_eq]

/-- Conversely two live positions give a quorum, with these slots. -/
theorem quorum_of_liveOrder (found : ring.findNodesForKey key = .ok replicas) (p q : Fin 3)
    (rest : List (Fin 3)) (order : liveOrder replicas isAlive shuffle = p :: q :: rest) :
    rest.length ≤ 1 ∧ ring.findQuorumForOperation isAlive shuffle key =
      .ok (slots (replicas p) (replicas q) (rest.head?.map replicas)) := by
  have enough : ¬ liveCount replicas isAlive < 2 := by
    rw [← liveOrder_length replicas isAlive shuffle, order]
    simp
  have returned := findQuorumForOperation_eq replicas isAlive shuffle ring key found
  rw [if_neg enough] at returned
  obtain ⟨p', q', rest', order', _, single, same⟩ :=
    quorum_slots replicas isAlive shuffle ring key _ found returned
  rw [order] at order'
  obtain ⟨rfl, rfl, rfl⟩ : p = p' ∧ q = q' ∧ rest = rest' := by simpa using order'
  exact ⟨single, same ▸ returned⟩

/-- The nodes of a returned quorum are the live replicas, whatever the
shuffle. -/
theorem mem_quorum (outNodes : Fin 3 → Option Node)
    (found : ring.findNodesForKey key = .ok replicas)
    (returned : ring.findQuorumForOperation isAlive shuffle key = .ok outNodes) (node : Node) :
    (∃ slot, outNodes slot = some node) ↔ isAlive node = true ∧ ∃ p, replicas p = node := by
  obtain ⟨p, q, rest, order, _, single, rfl⟩ :=
    quorum_slots replicas isAlive shuffle ring key outNodes found returned
  have listed : (node = replicas p ∨ node = replicas q ∨ rest.head?.map replicas = some node) ↔
      ∃ r ∈ liveOrder replicas isAlive shuffle, replicas r = node := by
    rw [order]
    match rest, single with
    | [], _ => simp [eq_comm]
    | [r], _ => simp [eq_comm]
  rw [mem_slots, listed]
  simp only [mem_liveOrder]
  constructor
  · rintro ⟨r, alive, rfl⟩
    exact ⟨alive, r, rfl⟩
  · rintro ⟨alive, r, rfl⟩
    exact ⟨r, alive, rfl⟩

/-- Two pairs of positions out of three have a position in common, so two
quorums meet. -/
theorem pairs_share_position (p q p' q' : Fin 3) (different : p ≠ q) (different' : p' ≠ q') :
    ∃ r, (r = p ∨ r = q) ∧ (r = p' ∨ r = q') := by
  have pigeonhole : p = p' ∨ p = q' ∨ q = p' ∨ q = q' := by omega
  rcases pigeonhole with rfl | rfl | rfl | rfl
  · exact ⟨p, Or.inl rfl, Or.inl rfl⟩
  · exact ⟨p, Or.inl rfl, Or.inr rfl⟩
  · exact ⟨q, Or.inr rfl, Or.inl rfl⟩
  · exact ⟨q, Or.inr rfl, Or.inr rfl⟩

/-- Safety of the quorums of a key: the request is refused exactly when
fewer than two replica positions are live; a returned array holds exactly
the live replicas, each once; and any two returned arrays, whatever the
liveness and the shuffle of each, share a node in their first two slots.

Proof: the first two slots hold the nodes of two different replica
positions, and two pairs of positions out of three have a position in
common. -/
theorem quorum_safety (nonempty : 0 < ring.ringByRange.size) :
    ∃ replicas, ring.findNodesForKey key = .ok replicas ∧
      (∀ isAlive shuffle,
        ((∃ what, ring.findQuorumForOperation isAlive shuffle key = .error (.unavailable what)) ↔
          liveCount replicas isAlive < 2) ∧
        (2 ≤ liveCount replicas isAlive →
          ∃ outNodes, ring.findQuorumForOperation isAlive shuffle key = .ok outNodes ∧
            (∀ node, (∃ slot, outNodes slot = some node) ↔
              isAlive node = true ∧ ∃ p, replicas p = node) ∧
            ∀ node j k, outNodes j = some node → outNodes k = some node → j = k)) ∧
      ∀ isAlive isAlive' shuffle shuffle' outNodes outNodes',
        ring.findQuorumForOperation isAlive shuffle key = .ok outNodes →
        ring.findQuorumForOperation isAlive' shuffle' key = .ok outNodes' →
          ∃ node, (outNodes 0 = some node ∨ outNodes 1 = some node) ∧
            (outNodes' 0 = some node ∨ outNodes' 1 = some node) := by
  obtain ⟨replicas, found, _⟩ := ring.findNodesForKey_eq key nonempty
  refine ⟨replicas, found, ?_, ?_⟩
  · intro isAlive shuffle
    have quorum := findQuorumForOperation_eq replicas isAlive shuffle ring key found
    constructor
    · by_cases few : liveCount replicas isAlive < 2
      · simp [quorum, few]
      · simp [quorum, few]
    · intro enough
      rw [if_neg (Nat.not_lt.mpr enough)] at quorum
      refine ⟨_, quorum, mem_quorum replicas isAlive shuffle ring key _ found quorum, ?_⟩
      obtain ⟨p, q, rest, _, _, _, same⟩ :=
        quorum_slots replicas isAlive shuffle ring key _ found quorum
      rw [same]
      exact fun node j k atJ atK => slots_injective _ _ _ node j k atJ atK
  · intro isAlive isAlive' shuffle shuffle' outNodes outNodes' returned returned'
    obtain ⟨p, q, rest, _, different, _, rfl⟩ :=
      quorum_slots replicas isAlive shuffle ring key outNodes found returned
    obtain ⟨p', q', rest', _, different', _, rfl⟩ :=
      quorum_slots replicas isAlive' shuffle' ring key outNodes' found returned'
    obtain ⟨r, inFirst, inSecond⟩ := pairs_share_position p q p' q' different different'
    refine ⟨replicas r, (mem_first_slots _ _ _ _).mpr ?_, (mem_first_slots _ _ _ _).mpr ?_⟩
    · exact inFirst.imp (congrArg replicas) (congrArg replicas)
    · exact inSecond.imp (congrArg replicas) (congrArg replicas)

/-- The guarantees on a ring of two nodes: with one of them down, the key
whose primary is the other one has a quorum, and no key has one when both
are down. -/
theorem two_nodes_quorum_safety :
    ∃ ring replicas, build [⟨1, 10⟩, ⟨2, 20⟩] = .ok ring ∧ 0 < ring.ringByRange.size ∧
      ring.findNodesForKey 15 = .ok replicas ∧
      (∀ shuffle, ∃ outNodes, ring.findQuorumForOperation (fun node => node.nodeId = 1) shuffle 15 =
        .ok outNodes ∧ ∃ slot, outNodes slot = some ⟨1, 10⟩) ∧
      ∀ shuffle, ∃ what, ring.findQuorumForOperation (fun _ => false) shuffle 15 =
        .error (.unavailable what) := by
  obtain ⟨ring, built, nonempty, located⟩ : ∃ ring, build [⟨1, 10⟩, ⟨2, 20⟩] = .ok ring ∧
      0 < ring.ringByRange.size ∧
      ring.findNodesForKey 15 = .ok ![⟨1, 10⟩, ⟨2, 20⟩, ⟨1, 10⟩] :=
    ⟨_, rfl, by decide, rfl⟩
  obtain ⟨replicas, found, answers, _⟩ := quorum_safety ring 15 nonempty
  obtain rfl := Except.ok.inj (located.symm.trans found)
  refine ⟨ring, _, built, nonempty, located, ?_, ?_⟩
  · intro shuffle
    obtain ⟨outNodes, returned, members, _⟩ :=
      (answers (fun node => node.nodeId = 1) shuffle).2 (by decide)
    exact ⟨outNodes, returned, (members ⟨1, 10⟩).mpr ⟨rfl, 0, rfl⟩⟩
  · intro shuffle
    exact (answers (fun _ => false) shuffle).1.mpr (by decide)

/-- The rule of the comment in the source: a quorum of a single node is
returned only when no replica is known to be down, hence on a ring of one
node. -/
def SingleNodeRule : Prop :=
  ∀ replicas outNodes, ring.findNodesForKey key = .ok replicas →
    ring.findQuorumForOperation isAlive shuffle key = .ok outNodes →
    (∃! node, ∃ slot, outNodes slot = some node) →
      (∀ p, isAlive (replicas p) = true) ∧ ring.ringByRange.size = 1

/-- On a ring of two nodes whose secondary for the key is down, the primary
alone is returned: it is live at two positions, and these are counted before
its second slot is blanked. -/
theorem lone_quorum_of_two (two : ring.ringByRange.size = 2)
    (found : ring.findNodesForKey key = .ok replicas) (primaryLive : isAlive (replicas 0) = true)
    (secondaryDown : isAlive (replicas 1) = false) :
    ∃ outNodes, ring.findQuorumForOperation isAlive shuffle key = .ok outNodes ∧
      ∃! node, ∃ slot, outNodes slot = some node := by
  obtain ⟨_, _, wraps⟩ := ring.position_eq_iff key (by omega)
  have repeated : replicas 2 = replicas 0 :=
    ((ring.replicas_eq_iff key replicas found 0 2).mpr (wraps.mpr (by omega))).symm
  have counted : liveCount replicas isAlive = 2 := by
    simp [liveCount, List.finRange_succ, repeated, primaryLive, secondaryDown]
  have returned := findQuorumForOperation_eq replicas isAlive shuffle ring key found
  rw [if_neg (by omega)] at returned
  have members := mem_quorum replicas isAlive shuffle ring key _ found returned
  refine ⟨_, returned, replicas 0, (members _).mpr ⟨primaryLive, 0, rfl⟩, ?_⟩
  intro node member
  obtain ⟨alive, p, rfl⟩ := (members node).mp member
  match p with
  | 0 => rfl
  | 1 => rw [secondaryDown] at alive; cases alive
  | 2 => exact repeated

/-- If one node holds all live positions and these are at least two, the
ring has one node, or it has two and the secondary is down. -/
theorem size_of_lone_quorum (found : ring.findNodesForKey key = .ok replicas) (node : Node)
    (held : ∀ p, isAlive (replicas p) = true → replicas p = node) (p q : Fin 3)
    (different : p ≠ q) (liveP : isAlive (replicas p) = true)
    (liveQ : isAlive (replicas q) = true) :
    ring.ringByRange.size = 1 ∨
      ring.ringByRange.size = 2 ∧ isAlive (replicas 0) = true ∧ isAlive (replicas 1) = false := by
  have nonempty := ring.size_pos_of_found key replicas found
  obtain ⟨firstSame, _, wraps⟩ := ring.position_eq_iff key nonempty
  have together := (ring.replicas_eq_iff key replicas found p q).mp
    ((held p liveP).trans (held q liveQ).symm)
  rcases ring.repeated_position key nonempty p q different together with one | ⟨two, notP, _⟩
  · exact Or.inl one
  · have primary : replicas p = replicas 0 := by
      rw [ring.replicas_eq_iff key replicas found]
      match p, notP with
      | 0, _ => rfl
      | 2, _ => exact (wraps.mpr (by omega)).symm
    refine Or.inr ⟨two, primary ▸ liveP, Bool.eq_false_of_not_eq_true fun secondaryLive => ?_⟩
    have one : ring.ringByRange.size = 1 := by
      refine firstSame.mp ((ring.replicas_eq_iff key replicas found 0 1).mp ?_)
      rw [held 0 (primary ▸ liveP), held 1 secondaryLive]
    omega

/-- The single node rule fails exactly on a ring of two nodes whose
secondary for the key is down and whose primary, which is the tertiary too,
is live.

Proof: live positions are counted before repeated nodes are blanked, so a
node held at two positions makes a quorum by itself, and by the size of the
ring that is the primary of a ring of two. -/
theorem single_node_rule_iff :
    SingleNodeRule isAlive shuffle ring key ↔
      ¬ (ring.ringByRange.size = 2 ∧ ∃ replicas, ring.findNodesForKey key = .ok replicas ∧
        isAlive (replicas 0) = true ∧ isAlive (replicas 1) = false) := by
  constructor
  · rintro rule ⟨two, replicas, found, primaryLive, secondaryDown⟩
    obtain ⟨outNodes, returned, lone⟩ :=
      lone_quorum_of_two replicas isAlive shuffle ring key two found primaryLive secondaryDown
    have allLive := (rule replicas outNodes found returned lone).1 1
    rw [secondaryDown] at allLive
    cases allLive
  · rintro notTwo replicas outNodes found returned ⟨node, _, single⟩
    have members := mem_quorum replicas isAlive shuffle ring key outNodes found returned
    have held : ∀ p, isAlive (replicas p) = true → replicas p = node := fun p alive =>
      single _ ((members _).mpr ⟨alive, p, rfl⟩)
    obtain ⟨p, q, rest, order, different, _, _⟩ :=
      quorum_slots replicas isAlive shuffle ring key outNodes found returned
    have liveP : isAlive (replicas p) = true :=
      (mem_liveOrder replicas isAlive shuffle p).mp (by simp [order])
    have liveQ : isAlive (replicas q) = true :=
      (mem_liveOrder replicas isAlive shuffle q).mp (by simp [order])
    rcases size_of_lone_quorum replicas isAlive ring key found node held p q different liveP
      liveQ with
      one | ⟨two, primaryLive, secondaryDown⟩
    · refine ⟨fun r => ?_, one⟩
      rw [ring.replicas_of_one key replicas found one r,
        ← ring.replicas_of_one key replicas found one p]
      exact liveP
    · exact absurd ⟨two, replicas, found, primaryLive, secondaryDown⟩ notTwo

/-- A ring of two nodes with the secondary of the key down: the primary
alone is returned as a quorum. -/
theorem single_node_quorum_with_secondary_down :
    ∃ ring, build [⟨1, 10⟩, ⟨2, 20⟩] = .ok ring ∧
      ring.findNodesForKey 15 = .ok ![⟨1, 10⟩, ⟨2, 20⟩, ⟨1, 10⟩] ∧
      ring.findQuorumForOperation (fun node => node.nodeId = 1) 1 15 =
        .ok ![some ⟨1, 10⟩, none, none] ∧
      ¬ SingleNodeRule (fun node => node.nodeId = 1) 1 ring 15 := by
  obtain ⟨ring, built, located, returned⟩ : ∃ ring, build [⟨1, 10⟩, ⟨2, 20⟩] = .ok ring ∧
      ring.findNodesForKey 15 = .ok ![⟨1, 10⟩, ⟨2, 20⟩, ⟨1, 10⟩] ∧
      ring.findQuorumForOperation (fun node => node.nodeId = 1) 1 15 =
        .ok ![some ⟨1, 10⟩, none, none] := by
    refine ⟨_, rfl, rfl, ?_⟩
    rw [findQuorumForOperation_eq _ _ _ _ _ rfl, if_neg (by decide)]
    congr 1
    funext slot
    fin_cases slot <;> rfl
  refine ⟨ring, built, located, returned, ?_⟩
  intro rule
  have lone : ∃! node, ∃ slot, (![some ⟨1, 10⟩, none, none] : Fin 3 → Option Node) slot =
      some node := by
    refine ⟨⟨1, 10⟩, ⟨0, rfl⟩, ?_⟩
    rintro node ⟨slot, held⟩
    fin_cases slot
    · exact (Option.some.inj held).symm
    · cases held
    · cases held
  have down := (rule _ _ located returned lone).1 1
  cases down

end Sopmq.Ring
