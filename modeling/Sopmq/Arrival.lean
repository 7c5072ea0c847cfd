import Mathlib.Data.List.Nodup
import Mathlib.Data.List.Pairwise

/-!
# Lists kept in order as elements arrive

Each arriving element is placed after all elements that are not greater than it
under a Boolean comparator, and before the greater ones behind them. Nothing is
assumed of the comparator here: it may leave elements unordered and may cycle.

Arrivals never reorder what is already there. For an asymmetric comparator and
distinct elements, the resulting list is independent of the order of arrival
exactly when the comparator orders every two of the elements and no three of them
in a cycle.
-/

namespace Sopmq.Arrival

universe u v
variable {α : Type u} {β : Type v}

/-- Place an element after all elements not greater than it: in front of the
longest end of the list whose elements are all greater. This is where a
sorted sequence files it when the comparator is an order. -/
def place (less : α → α → Bool) (item : α) : List α → List α
  | [] => [item]
  | first :: rest =>
      if (first :: rest).all (less item) then item :: first :: rest
      else first :: place less item rest

/-- The list after the given arrivals, starting from a given list. The
arrivals are placed one at a time, from the first to the last. -/
def arriveAt (less : α → α → Bool) (kept : List α) (items : List α) : List α :=
  items.foldl (fun kept item => place less item kept) kept

/-- The list after the given arrivals, when there was nothing before
them. -/
def arrive (less : α → α → Bool) (items : List α) : List α := arriveAt less [] items

variable (less : α → α → Bool)

/-- Placing an element adds it and loses nothing, whatever the comparator
says of the others. -/
theorem place_perm (item : α) (kept : List α) : (place less item kept).Perm (item :: kept) := by
  induction kept with
  | nil => exact List.Perm.refl _
  | cons first rest inductionHypothesis =>
    unfold place
    split
    · exact List.Perm.refl _
    · exact (inductionHypothesis.cons first).trans (List.Perm.swap item first rest)

/-- Placing an element keeps the others in their order. Nothing that is
already there is moved past anything else. -/
theorem place_sublist (item : α) (kept : List α) : kept.Sublist (place less item kept) := by
  induction kept with
  | nil => exact List.nil_sublist _
  | cons first rest inductionHypothesis =>
    unfold place
    split
    · exact List.sublist_cons_self item _
    · exact inductionHypothesis.cons_cons first

/-- The list holds the arrivals and what was there before, each as often as
it was given. By induction on the arrivals, of which each is placed. -/
theorem arriveAt_perm (kept items : List α) :
    (arriveAt less kept items).Perm (items ++ kept) := by
  induction items generalizing kept with
  | nil => exact List.Perm.refl _
  | cons item rest inductionHypothesis =>
    have placed := (inductionHypothesis (place less item kept)).trans
      ((place_perm less item kept).append_left rest)
    exact placed.trans List.perm_middle

/-- Arrivals to an empty list are all there in the end, and nothing else
is. -/
theorem arrive_perm (items : List α) : (arrive less items).Perm items := by
  simpa [arrive] using arriveAt_perm less [] items

/-- Later arrivals keep what is there in its order. So an order of two
elements that is reached once is final. -/
theorem arriveAt_sublist (kept items : List α) : kept.Sublist (arriveAt less kept items) := by
  induction items generalizing kept with
  | nil => exact List.Sublist.refl _
  | cons item rest inductionHypothesis =>
    exact (place_sublist less item kept).trans (inductionHypothesis (place less item kept))

/-- Placing commutes with any view of the elements that the comparator
respects. Elements that are compared by a key may so be read as their
keys. -/
theorem place_map (view : α → β) (less' : β → β → Bool)
    (respects : ∀ x y, less' (view x) (view y) = less x y) (item : α) (kept : List α) :
    (place less item kept).map view = place less' (view item) (kept.map view) := by
  induction kept with
  | nil => rfl
  | cons first rest inductionHypothesis =>
    have same : ((first :: rest).map view).all (less' (view item)) =
        (first :: rest).all (less item) := by
      simp [List.all_map, Function.comp_def, respects]
    rw [List.map_cons] at same
    simp only [place, List.map_cons, same]
    split
    · rfl
    · rw [List.map_cons, inductionHypothesis]

/-- So does a whole sequence of arrivals: the view of the list is the list
of the views, compared among themselves. -/
theorem arriveAt_map (view : α → β) (less' : β → β → Bool)
    (respects : ∀ x y, less' (view x) (view y) = less x y) (kept items : List α) :
    (arriveAt less kept items).map view = arriveAt less' (kept.map view) (items.map view) := by
  induction items generalizing kept with
  | nil => rfl
  | cons item rest inductionHypothesis =>
    have continued := inductionHypothesis (place less item kept)
    rw [place_map less view less' respects] at continued
    exact continued

/-- A list of distinct elements holds two of them in one order only. The
first of the two occurs once, before or after the other. -/
theorem not_both_orders (x y : α) (kept : List α) (distinct : kept.Nodup)
    (forward : [x, y].Sublist kept) (backward : [y, x].Sublist kept) : False := by
  induction kept with
  | nil => exact absurd forward.length_le (by simp)
  | cons first rest inductionHypothesis =>
    obtain ⟨fresh, restDistinct⟩ := List.nodup_cons.mp distinct
    cases forward with
    | cons _ forward =>
      cases backward with
      | cons _ backward => exact inductionHypothesis restDistinct forward backward
      | cons_cons _ _ => exact fresh (forward.mem (by simp))
    | cons_cons _ forward =>
      cases backward with
      | cons _ backward => exact fresh (backward.mem (by simp))
      | cons_cons _ _ => exact fresh (forward.mem (by simp))

/-- Every two of the elements are ordered one way. Nothing is said here
about both ways at once. -/
def Orders (items : List α) : Prop :=
  ∀ x ∈ items, ∀ y ∈ items, x ≠ y → less x y = true ∨ less y x = true

/-- No three of the elements are ordered in a cycle. Longer cycles contain a
shorter one as soon as every two elements are ordered. -/
def Acyclic (items : List α) : Prop :=
  ∀ x ∈ items, ∀ y ∈ items, ∀ z ∈ items,
    ¬ (less x y = true ∧ less y z = true ∧ less z x = true)

/-- No element is both less and greater than another, and none is less than
itself. -/
def Asymmetric (items : List α) : Prop :=
  ∀ x ∈ items, ∀ y ∈ items, less x y = true → less y x = false

/-- Elements ordered without cycles are ordered transitively. The third and
the first are ordered somehow, and the other way would close a cycle. -/
theorem transitive_of_acyclic (items : List α) (asymmetric : Asymmetric less items)
    (orders : Orders less items) (acyclic : Acyclic less items) {x y z : α}
    (xIn : x ∈ items) (yIn : y ∈ items) (zIn : z ∈ items)
    (first : less x y = true) (second : less y z = true) : less x z = true := by
  have different : x ≠ z := by
    rintro rfl
    simp [asymmetric x xIn y yIn first] at second
  rcases orders x xIn z zIn different with outer | reversed
  · exact outer
  · exact absurd ⟨first, second, reversed⟩ (acyclic x xIn y yIn z zIn)

/-- On the elements the comparator follows a relation under which they form
a chain: different elements compare as the relation says, and no element is
less than one below it. -/
structure Follows (below : α → α → Prop) (items : List α) : Prop where
  total : ∀ x ∈ items, ∀ y ∈ items, below x y ∨ below y x
  transitive : ∀ x ∈ items, ∀ y ∈ items, ∀ z ∈ items, below x y → below y z → below x z
  smaller : ∀ x ∈ items, ∀ y ∈ items, x ≠ y → below x y → less x y = true
  notGreater : ∀ x ∈ items, ∀ y ∈ items, below x y → less y x = false

variable {less}

/-- What the comparator calls less is below in the chain. Of two elements
one is below the other, and the wrong one would not be less. -/
theorem Follows.below_of_less {below : α → α → Prop} {items : List α}
    (follows : Follows less below items) {x y : α} (xIn : x ∈ items) (yIn : y ∈ items)
    (smaller : less x y = true) : below x y := by
  rcases follows.total x xIn y yIn with ordered | reversed
  · exact ordered
  · exact absurd smaller (by simp [follows.notGreater y yIn x xIn reversed])

/-- A comparator that follows a chain is asymmetric on it, since the
relation allows one direction only. -/
theorem Follows.asymmetric {below : α → α → Prop} {items : List α}
    (follows : Follows less below items) : Asymmetric less items := by
  intro x xIn y yIn smaller
  exact follows.notGreater x xIn y yIn (follows.below_of_less xIn yIn smaller)

/-- It orders every two different elements, since the chain does. -/
theorem Follows.orders {below : α → α → Prop} {items : List α}
    (follows : Follows less below items) : Orders less items := by
  intro x xIn y yIn different
  rcases follows.total x xIn y yIn with ordered | reversed
  · exact Or.inl (follows.smaller x xIn y yIn different ordered)
  · exact Or.inr (follows.smaller y yIn x xIn different.symm reversed)

/-- It has no cycles. Two steps of a cycle lead upwards in the chain, so the
third cannot lead back. -/
theorem Follows.acyclic {below : α → α → Prop} {items : List α}
    (follows : Follows less below items) : Acyclic less items := by
  rintro x xIn y yIn z zIn ⟨first, second, third⟩
  have outer := follows.transitive x xIn y yIn z zIn (follows.below_of_less xIn yIn first)
    (follows.below_of_less yIn zIn second)
  exact absurd third (by simp [follows.notGreater x xIn z zIn outer])

variable (less)

/-- Placing a new element keeps an ordered list ordered. The elements that
it is not less than come first, and the first greater one has only greater
ones behind it. -/
theorem place_ordered (items : List α) (asymmetric : Asymmetric less items)
    (orders : Orders less items) (acyclic : Acyclic less items) (item : α) (kept : List α)
    (itemIn : item ∈ items) (keptIn : ∀ x ∈ kept, x ∈ items) (fresh : item ∉ kept)
    (ordered : kept.Pairwise (fun x y => less x y = true)) :
    (place less item kept).Pairwise (fun x y => less x y = true) := by
  induction kept with
  | nil => exact List.pairwise_singleton _ _
  | cons first rest inductionHypothesis =>
    obtain ⟨below, restOrdered⟩ := List.pairwise_cons.mp ordered
    have firstIn : first ∈ items := keptIn first List.mem_cons_self
    have restIn : ∀ x ∈ rest, x ∈ items := fun x member => keptIn x (List.mem_cons_of_mem _ member)
    have notFirst : item ≠ first := fun same => fresh (same ▸ List.mem_cons_self)
    have notRest : item ∉ rest := fun member => fresh (List.mem_cons_of_mem _ member)
    unfold place
    split
    · next all =>
      exact List.pairwise_cons.mpr ⟨List.all_eq_true.mp all, ordered⟩
    · next blocked =>
      refine List.pairwise_cons.mpr ⟨?_, inductionHypothesis restIn notRest restOrdered⟩
      have firstBelow : less first item = true := by
        rcases orders first firstIn item itemIn (Ne.symm notFirst) with below | above
        · exact below
        · refine absurd (List.all_eq_true.mpr ?_) blocked
          intro x member
          rcases List.mem_cons.mp member with rfl | inRest
          · exact above
          · exact transitive_of_acyclic less items asymmetric orders acyclic itemIn firstIn
              (restIn x inRest) above (below x inRest)
      intro x member
      rcases List.mem_cons.mp ((place_perm less item rest).mem_iff.mp member) with rfl | inRest
      · exact firstBelow
      · exact below x inRest

/-- A sequence of distinct arrivals keeps an ordered list ordered. By
induction on the arrivals, each of which is new to the list. -/
theorem arriveAt_ordered (items : List α) (asymmetric : Asymmetric less items)
    (orders : Orders less items) (acyclic : Acyclic less items) (kept arriving : List α)
    (keptIn : ∀ x ∈ kept, x ∈ items) (arrivingIn : ∀ x ∈ arriving, x ∈ items)
    (distinct : (arriving ++ kept).Nodup)
    (ordered : kept.Pairwise (fun x y => less x y = true)) :
    (arriveAt less kept arriving).Pairwise (fun x y => less x y = true) := by
  induction arriving generalizing kept with
  | nil => exact ordered
  | cons item rest inductionHypothesis =>
    have itemIn : item ∈ items := arrivingIn item List.mem_cons_self
    obtain ⟨fresh, restDistinct⟩ := List.nodup_cons.mp distinct
    have notKept : item ∉ kept := fun member => fresh (List.mem_append_right _ member)
    apply inductionHypothesis (place less item kept)
    · intro x member
      rcases List.mem_cons.mp ((place_perm less item kept).mem_iff.mp member) with rfl | inKept
      · exact itemIn
      · exact keptIn x inKept
    · exact fun x member => arrivingIn x (List.mem_cons_of_mem _ member)
    · have moved : (rest ++ place less item kept).Perm (item :: rest ++ kept) :=
        ((place_perm less item kept).append_left rest).trans List.perm_middle
      exact moved.nodup_iff.mpr distinct
    · exact place_ordered less items asymmetric orders acyclic item kept itemIn keptIn notKept
        ordered

/-- Two elements that arrive first stay in their order when the second is
not less than the first. -/
theorem first_two (x y : α) (rest : List α) (notLess : less y x = false) :
    [x, y].Sublist (arrive less (x :: y :: rest)) := by
  have start : place less y [x] = [x, y] := by simp [place, notLess]
  change [x, y].Sublist (arriveAt less (place less y [x]) rest)
  rw [start]
  exact arriveAt_sublist less [x, y] rest

/-- Three elements that arrive first stay in their order when neither the
second nor the third is less than the one before it. -/
theorem first_three (x y z : α) (rest : List α) (notLess : less y x = false)
    (notLess' : less z y = false) : [x, y, z].Sublist (arrive less (x :: y :: z :: rest)) := by
  have start : place less z (place less y [x]) = [x, y, z] := by simp [place, notLess, notLess']
  change [x, y, z].Sublist (arriveAt less (place less z (place less y [x])) rest)
  rw [start]
  exact arriveAt_sublist less [x, y, z] rest

/-- The elements arrive at the same list in every order of arrival. This is
what several readers need that get the same elements in different orders. -/
def Agree (items : List α) : Prop :=
  ∀ first second : List α, first.Perm items → second.Perm items →
    arrive less first = arrive less second

/-- Two different elements may be the first to arrive: the others follow in
some order. -/
theorem exists_front_two (items : List α) {x y : α} (xIn : x ∈ items) (yIn : y ∈ items)
    (different : x ≠ y) : ∃ rest, (x :: y :: rest).Perm items := by
  classical
  have yErased : y ∈ items.erase x := (List.mem_erase_of_ne different.symm).mpr yIn
  exact ⟨(items.erase x).erase y,
    ((List.perm_cons_erase xIn).trans ((List.perm_cons_erase yErased).cons x)).symm⟩

/-- So may any three different elements, in any order among themselves. -/
theorem exists_front_three (items : List α) {x y z : α} (xIn : x ∈ items) (yIn : y ∈ items)
    (zIn : z ∈ items) (xy : x ≠ y) (yz : y ≠ z) (xz : x ≠ z) :
    ∃ rest, (x :: y :: z :: rest).Perm items := by
  classical
  obtain ⟨rest, perm⟩ := exists_front_two items xIn yIn xy
  have zRest : z ∈ rest := by simpa [xz.symm, yz.symm] using perm.mem_iff.mpr zIn
  exact ⟨rest.erase z, (((List.perm_cons_erase zRest).cons y).cons x).symm.trans perm⟩

/-- Two orders of arrival that agree cannot leave two elements in opposite
orders, as the two lists are the same and hold each element once. -/
theorem not_opposite (items : List α) (distinct : items.Nodup) (agree : Agree less items)
    (x y : α) {first second : List α} (firstPerm : first.Perm items)
    (secondPerm : second.Perm items) (forward : [x, y].Sublist (arrive less first)) :
    ¬ [y, x].Sublist (arrive less second) := by
  intro backward
  rw [agree second first secondPerm firstPerm] at backward
  have nodup : (arrive less first).Nodup :=
    ((arrive_perm less first).trans firstPerm).nodup_iff.mpr distinct
  exact not_both_orders x y _ nodup forward backward

/-- Where all orders of arrival agree, every two elements are ordered. Two
unordered elements that arrive first would stay in their order of arrival,
and they may arrive either way. -/
theorem orders_of_agree (items : List α) (distinct : items.Nodup) (agree : Agree less items) :
    Orders less items := by
  intro x xIn y yIn different
  by_contra unordered
  rw [not_or, Bool.not_eq_true, Bool.not_eq_true] at unordered
  obtain ⟨rest, perm⟩ := exists_front_two items xIn yIn different
  have swapped : (y :: x :: rest).Perm items := (List.Perm.swap x y rest).trans perm
  exact not_opposite less items distinct agree x y perm swapped
    (first_two less x y rest unordered.2) (first_two less y x rest unordered.1)

/-- Three elements of a cycle that arrive first in the order of the cycle
stay in that order, and the cycle may be entered at any of them. -/
theorem acyclic_of_agree (items : List α) (distinct : items.Nodup)
    (asymmetric : Asymmetric less items) (agree : Agree less items) : Acyclic less items := by
  rintro x xIn y yIn z zIn ⟨first, second, third⟩
  have notFirst := asymmetric x xIn y yIn first
  have notSecond := asymmetric y yIn z zIn second
  have notThird := asymmetric z zIn x xIn third
  have xy : x ≠ y := by
    rintro rfl
    simp [first] at notFirst
  have yz : y ≠ z := by
    rintro rfl
    simp [second] at notSecond
  have xz : x ≠ z := by
    rintro rfl
    simp [third] at notThird
  obtain ⟨rest, perm⟩ := exists_front_three items xIn yIn zIn xy yz xz
  have rotated : (y :: z :: x :: rest).Perm items :=
    (((List.Perm.swap x z rest).cons y).trans (List.Perm.swap x y _)).trans perm
  have forward := first_three less x y z rest notFirst notSecond
  have backward := first_three less y z x rest notSecond notThird
  exact not_opposite less items distinct agree x y perm rotated
    (List.Sublist.trans (by simp) forward) (List.Sublist.trans (by simp) backward)

/-- A list ordered by an asymmetric comparator is determined by its
elements, and every arrival keeps the list ordered. -/
theorem agree_of_acyclic (items : List α) (distinct : items.Nodup)
    (asymmetric : Asymmetric less items) (orders : Orders less items)
    (acyclic : Acyclic less items) : Agree less items := by
  intro first second firstPerm secondPerm
  have sorted (arrival : List α) (perm : arrival.Perm items) :
      (arrive less arrival).Pairwise (fun x y => less x y = true) := by
    refine arriveAt_ordered less items asymmetric orders acyclic [] arrival ?_ ?_ ?_
      List.Pairwise.nil
    · exact fun x member => absurd member List.not_mem_nil
    · exact fun x member => perm.mem_iff.mp member
    · simpa using perm.nodup_iff.mpr distinct
  have same : (arrive less first).Perm (arrive less second) :=
    ((arrive_perm less first).trans (firstPerm.trans secondPerm.symm)).trans
      (arrive_perm less second).symm
  refine List.Perm.eq_of_pairwise ?_ (sorted first firstPerm) (sorted second secondPerm) same
  intro x y xIn yIn below above
  have xMember := ((arrive_perm less first).trans firstPerm).mem_iff.mp xIn
  have yMember := ((arrive_perm less second).trans secondPerm).mem_iff.mp yIn
  simp [asymmetric x xMember y yMember below] at above

/-- The comparator follows the places of a list that it increases along. The
chain is that of the positions, and an asymmetric comparator cannot also go
down. -/
theorem follows_of_increasing (order : List α) [DecidableEq α]
    (increasing : order.Pairwise (fun x y => less x y = true))
    (asymmetric : Asymmetric less order) :
    Follows less (fun x y => order.idxOf x ≤ order.idxOf y) order := by
  have earlier : ∀ x ∈ order, ∀ y ∈ order, x ≠ y → order.idxOf x ≤ order.idxOf y →
      less x y = true := by
    intro x xIn y yIn different before
    have xPlace := List.idxOf_lt_length_of_mem xIn
    have yPlace := List.idxOf_lt_length_of_mem yIn
    have strict : order.idxOf x < order.idxOf y :=
      Nat.lt_of_le_of_ne before fun same => different ((List.idxOf_inj xIn).mp same)
    have below := List.pairwise_iff_getElem.mp increasing _ _ xPlace yPlace strict
    rwa [List.getElem_idxOf, List.getElem_idxOf] at below
  refine ⟨fun x _ y _ => Nat.le_total _ _, fun x _ y _ z _ => Nat.le_trans, earlier, ?_⟩
  intro x xIn y yIn before
  by_cases same : x = y
  · subst same
    cases itself : less x x with
    | false => rfl
    | true => exact itself.symm.trans (asymmetric x xIn x xIn itself)
  · exact asymmetric x xIn y yIn (earlier x xIn y yIn same before)

/-- Elements that a list increases along arrive at that list in every order.
Both lists are ordered by the comparator and hold the same elements. -/
theorem arrive_eq_of_increasing (order arrival : List α) [DecidableEq α] (distinct : order.Nodup)
    (increasing : order.Pairwise (fun x y => less x y = true))
    (asymmetric : Asymmetric less order) (perm : arrival.Perm order) :
    arrive less arrival = order := by
  have follows := follows_of_increasing less order increasing asymmetric
  have sorted : (arrive less arrival).Pairwise (fun x y => less x y = true) := by
    refine arriveAt_ordered less order asymmetric follows.orders follows.acyclic [] arrival ?_
      (fun x member => perm.mem_iff.mp member) ?_ List.Pairwise.nil
    · exact fun x member => absurd member List.not_mem_nil
    · simpa using perm.nodup_iff.mpr distinct
  have same := (arrive_perm less arrival).trans perm
  refine List.Perm.eq_of_pairwise ?_ sorted increasing same
  intro x y xIn yIn below above
  simp [asymmetric x (same.mem_iff.mp xIn) y yIn below] at above

/-- Distinct elements arrive at the same list in every order exactly when
the comparator orders every two of them and no three of them in a cycle. -/
theorem agree_iff (items : List α) (distinct : items.Nodup)
    (asymmetric : Asymmetric less items) :
    Agree less items ↔ Orders less items ∧ Acyclic less items := by
  constructor
  · intro agree
    exact ⟨orders_of_agree less items distinct agree,
      acyclic_of_agree less items distinct asymmetric agree⟩
  · rintro ⟨orders, acyclic⟩
    exact agree_of_acyclic less items distinct asymmetric orders acyclic

end Sopmq.Arrival
