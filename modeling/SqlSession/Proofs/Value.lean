import Mathlib.Logic.Relation
import SqlSession.Value.Basic

/-!
# `SqlSession.Proofs.Value`: values inside lists

A list stands for its elements wherever it is bound, and
`Value.flattenAll` says which these are. Here it is held against two
descriptions that do not flatten anything.

The first one is by places. `Value.inside?` follows positions into lists,
and `Value.Leaves` are the places of the values that are no lists, in
lexicographic order: one list after the other, each of them entered where
it stands. `exists_leaves` says that the values there are those that
flattening gives.

The second one is by steps. A `Splice` replaces one list, at any depth, by
its elements. No step changes what the values stand for
(`Splice.flattenAll_eq`), and some steps lead to the flattened values
(`splices_flattenAll`), so flattening decides whether two lists of values
differ by such steps alone (`flattenAll_eq_iff`).

`pushAllOnto_eq` is the loop that appends one value after another to those
it has so far.
-/

set_option autoImplicit false

namespace SqlSession.Value

/-- Values are gone through one after another, and what is inside a list
before what stands behind it. -/
theorem induction_inside {motive : List Value → Prop} (nil : motive [])
    (leaf : ∀ v vs, v.isList = false → motive vs → motive (v :: vs))
    (list : ∀ items vs, motive items → motive vs → motive (.list items :: vs)) :
    (vs : List Value) → motive vs
  | [] => nil
  | v :: vs => by
      have hvs := induction_inside nil leaf list vs
      cases v with
      | list items => exact list items vs (induction_inside nil leaf list items) hvs
      | _ => exact leaf _ vs rfl hvs
-- What is inside a list is no tail of the values, so the recursion is on their size.
termination_by vs => sizeOf vs

/-! ### Values without lists -/

/-- A value that is no list stands for itself. -/
theorem flatten_of_isList {v : Value} (h : v.isList = false) : v.flatten = [v] := by
  cases v with
  | list items => exact nomatch h
  | _ => rfl

/-- A value that is no list stays in front. -/
theorem flattenAll_cons_of_isList {v : Value} (h : v.isList = false) (vs : List Value) :
    flattenAll (v :: vs) = v :: flattenAll vs := by
  rw [flattenAll, flatten_of_isList h, List.singleton_append]

/-- A list in front makes way for what its elements stand for. -/
theorem flattenAll_cons_list (items vs : List Value) :
    flattenAll (.list items :: vs) = flattenAll items ++ flattenAll vs := by
  rw [flattenAll, flatten]

/-- What values stand for are no lists. -/
theorem isList_of_mem_flattenAll (vs : List Value) : ∀ w ∈ flattenAll vs, w.isList = false := by
  induction vs using induction_inside with
  | nil => exact fun w hw => nomatch hw
  | leaf v vs hv ih =>
      intro w hw
      rw [flattenAll_cons_of_isList hv] at hw
      rcases List.mem_cons.mp hw with rfl | hw
      · exact hv
      · exact ih w hw
  | list items vs hitems ih =>
      intro w hw
      rw [flattenAll_cons_list] at hw
      rcases List.mem_append.mp hw with hw | hw
      · exact hitems w hw
      · exact ih w hw

/-- The same of a single value. -/
theorem isList_of_mem_flatten (v : Value) : ∀ w ∈ v.flatten, w.isList = false := by
  have hall := isList_of_mem_flattenAll [v]
  rwa [flattenAll, flattenAll, List.append_nil] at hall

/-- Values without lists stand for themselves. -/
theorem flattenAll_of_forall {vs : List Value} (h : ∀ v ∈ vs, v.isList = false) :
    flattenAll vs = vs := by
  induction vs with
  | nil => rfl
  | cons v vs ih =>
      rw [flattenAll_cons_of_isList (h v List.mem_cons_self),
        ih fun w hw => h w (List.mem_cons_of_mem v hw)]

/-- Flattening once is enough. -/
theorem flattenAll_flattenAll (vs : List Value) : flattenAll (flattenAll vs) = flattenAll vs :=
  flattenAll_of_forall (isList_of_mem_flattenAll vs)

/-! ### One value after another -/

mutual

/-- The elements of a value, appended to those there are. -/
def pushOnto (out : List Value) : Value → List Value
  | .list items => pushAllOnto out items
  | v => out ++ [v]
termination_by structural v => v

/-- The elements of values, appended one value after another. -/
def pushAllOnto (out : List Value) : List Value → List Value
  | [] => out
  | v :: vs => pushAllOnto (pushOnto out v) vs
termination_by structural vs => vs

end

/-- A value that is no list is appended as it is. -/
theorem pushOnto_of_isList {v : Value} (h : v.isList = false) (out : List Value) :
    pushOnto out v = out ++ [v] := by
  cases v with
  | list items => exact nomatch h
  | _ => rfl

/-- Appending is flattening, whatever was there before. -/
theorem pushAllOnto_eq (vs : List Value) : ∀ out, pushAllOnto out vs = out ++ flattenAll vs := by
  induction vs using induction_inside with
  | nil => exact fun out => (List.append_nil out).symm
  | leaf v vs hv ih =>
      intro out
      rw [pushAllOnto, pushOnto_of_isList hv, ih, flattenAll_cons_of_isList hv, List.append_assoc,
        List.singleton_append]
  | list items vs hitems ih =>
      -- The loop leaves the list with more than `out`, so the equation is for all there can be.
      intro out
      rw [pushAllOnto, pushOnto, hitems, ih, flattenAll_cons_list, List.append_assoc]

/-! ### Places -/

/-- The value at a place: positions in lists, the outermost list first. -/
def inside? : Value → List Nat → Option Value
  | v, [] => some v
  | .list items, i :: place => items[i]?.bind (inside? · place)
  | _, _ :: _ => none
termination_by structural _ place => place

/-- The places of all values inside `v` that are no lists, in lexicographic
order: from left to right, and what is inside a list where the list stands. -/
structure Leaves (v : Value) (places : List (List Nat)) : Prop where
  ordered : places.Pairwise (· < ·)
  complete : ∀ place, place ∈ places ↔ ∃ leaf, v.inside? place = some leaf ∧ leaf.isList = false

/-- The same place inside the value one position further to the right. -/
def further : List Nat → List Nat
  | [] => []
  | i :: place => (i + 1) :: place

/-- Moving both places one value to the right keeps their order. -/
theorem further_lt_further {p q : List Nat} (h : p < q) : further p < further q := by
  cases p with
  | nil =>
      cases q with
      | nil => exact absurd h (List.lt_irrefl [])
      | cons j q => exact List.nil_lt_cons (j + 1) q
  | cons i p =>
      cases q with
      | nil => exact absurd h (List.not_lt_nil (i :: p))
      | cons j q =>
          rw [List.cons_lt_cons_iff] at h
          refine List.cons_lt_cons_iff.mpr (h.imp Nat.succ_lt_succ ?_)
          exact fun ⟨hij, hpq⟩ => ⟨congrArg (· + 1) hij, hpq⟩

/-- One value in front moves all others, and nothing inside them. -/
theorem inside?_further {place : List Nat} (h : place ≠ []) (v : Value) (vs : List Value) :
    (list (v :: vs)).inside? (further place) = (list vs).inside? place := by
  cases place with
  | nil => exact absurd rfl h
  | cons i place => rfl

namespace Leaves

/-- A value that is no list is the only one inside itself. -/
theorem of_isList {v : Value} (h : v.isList = false) : v.Leaves [[]] where
  ordered := List.pairwise_singleton _ _
  complete place := by
    cases place with
    | nil => exact iff_of_true List.mem_cons_self ⟨v, rfl, h⟩
    | cons i place =>
        refine iff_of_false (fun hmem => nomatch List.mem_singleton.mp hmem) ?_
        rintro ⟨leaf, hleaf, -⟩
        cases v with
        | list items => exact nomatch h
        | _ => exact nomatch hleaf

/-- There are no leaves inside the empty list. -/
theorem nil : (list []).Leaves [] where
  ordered := .nil
  complete place := by
    refine iff_of_false List.not_mem_nil ?_
    rintro ⟨leaf, hleaf, hplain⟩
    cases place with
    | nil =>
        rw [← Option.some.inj hleaf] at hplain
        exact nomatch hplain
    | cons i place => exact nomatch hleaf

/-- The list itself is none of the leaves inside it. -/
theorem ne_nil {items : List Value} {places : List (List Nat)} (h : (list items).Leaves places)
    {place : List Nat} (hplace : place ∈ places) : place ≠ [] := by
  rintro rfl
  obtain ⟨leaf, hleaf, hplain⟩ := (h.complete []).mp hplace
  rw [← Option.some.inj hleaf] at hplain
  exact nomatch hplain

/-- What is inside the first value comes before what is inside the
others. -/
theorem cons {v : Value} {vs : List Value} {first rest : List (List Nat)} (hfirst : v.Leaves first)
    (hrest : (list vs).Leaves rest) :
    (list (v :: vs)).Leaves (first.map (0 :: ·) ++ rest.map further) where
  ordered := by
    refine List.pairwise_append.mpr ⟨?_, ?_, ?_⟩
    · refine hfirst.ordered.map _ fun p q h => ?_
      exact List.cons_lt_cons_iff.mpr (.inr ⟨rfl, h⟩)
    · exact hrest.ordered.map _ fun p q => further_lt_further
    · -- Places inside the first value begin with 0, and places inside the others do not.
      intro p hp q hq
      obtain ⟨place, -, rfl⟩ := List.mem_map.mp hp
      obtain ⟨other, hother, rfl⟩ := List.mem_map.mp hq
      obtain ⟨i, other, rfl⟩ := List.exists_cons_of_ne_nil (hrest.ne_nil hother)
      exact List.cons_lt_cons_iff.mpr (.inl (Nat.succ_pos i))
  complete place := by
    rw [List.mem_append, List.mem_map, List.mem_map]
    constructor
    · rintro (⟨place, hplace, rfl⟩ | ⟨place, hplace, rfl⟩)
      · exact (hfirst.complete place).mp hplace
      · rw [inside?_further (hrest.ne_nil hplace)]
        exact (hrest.complete place).mp hplace
    · rintro ⟨leaf, hleaf, hplain⟩
      match place with
      | [] =>
          -- This is the place of the list itself.
          rw [← Option.some.inj hleaf] at hplain
          exact nomatch hplain
      | 0 :: place => exact .inl ⟨place, (hfirst.complete place).mpr ⟨leaf, hleaf, hplain⟩, rfl⟩
      | (i + 1) :: place =>
          exact .inr ⟨i :: place, (hrest.complete (i :: place)).mpr ⟨leaf, hleaf, hplain⟩, rfl⟩

/-- The values there are those of the first value and those of the others. -/
theorem map_cons {v : Value} {vs : List Value} {first rest : List (List Nat)}
    (hrest : (list vs).Leaves rest) (hfirst : v.flatten.map some = first.map v.inside?)
    (hothers : (flattenAll vs).map some = rest.map (list vs).inside?) :
    (flattenAll (v :: vs)).map some
      = (first.map (0 :: ·) ++ rest.map further).map (list (v :: vs)).inside? := by
  rw [flattenAll, List.map_append, List.map_append, List.map_map, List.map_map, hfirst, hothers]
  refine congrArg (first.map v.inside? ++ ·) (List.map_congr_left fun place hplace => ?_)
  exact (inside?_further (hrest.ne_nil hplace) v vs).symm

end Leaves

/-- Flattening gives the values that are no lists, from left to right. -/
theorem exists_leaves (vs : List Value) :
    ∃ places, (list vs).Leaves places ∧ (flattenAll vs).map some = places.map (list vs).inside? := by
  induction vs using induction_inside with
  | nil => exact ⟨[], .nil, rfl⟩
  | leaf v vs hv ih =>
      obtain ⟨rest, hrest, hothers⟩ := ih
      have hvalue : v.flatten.map some = [[]].map v.inside? := by
        rw [flatten_of_isList hv]
        rfl
      exact ⟨_, (Leaves.of_isList hv).cons hrest, hrest.map_cons hvalue hothers⟩
  | list items vs hitems ih =>
      obtain ⟨first, hfirst, hvalues⟩ := hitems
      obtain ⟨rest, hrest, hothers⟩ := ih
      exact ⟨_, hfirst.cons hrest, hrest.map_cons hvalues hothers⟩

/-! ### Splices -/

/-- One list among the values, at any depth, makes way for its elements. -/
inductive Splice : List Value → List Value → Prop
  | here (before items after : List Value) :
      Splice (before ++ .list items :: after) (before ++ items ++ after)
  | inside (before after : List Value) {items spliced : List Value} (h : Splice items spliced) :
      Splice (before ++ .list items :: after) (before ++ .list spliced :: after)

namespace Splice

variable {vs ws : List Value}

/-- A splice changes nothing of what the values stand for. -/
theorem flattenAll_eq (h : Splice vs ws) : flattenAll vs = flattenAll ws := by
  induction h with
  | here before items after =>
      rw [flattenAll_append, flattenAll_append, flattenAll_append, flattenAll, flatten,
        List.append_assoc]
  | inside before after h ih =>
      rw [flattenAll_append, flattenAll_append, flattenAll, flattenAll, flatten, flatten, ih]

/-- A splice can be made among more values. -/
theorem among (left right : List Value) (h : Splice vs ws) :
    Splice (left ++ vs ++ right) (left ++ ws ++ right) := by
  -- The list that makes way stays where it is, with more values around it.
  cases h with
  | here before items after =>
      have hsplice := Splice.here (left ++ before) items (after ++ right)
      simpa only [List.append_assoc, List.cons_append] using hsplice
  | inside before after h =>
      have hsplice := Splice.inside (left ++ before) (after ++ right) h
      simpa only [List.append_assoc, List.cons_append] using hsplice

end Splice

/-- Splices one after another. -/
abbrev Splices : List Value → List Value → Prop := Relation.ReflTransGen Splice

/-- Splices may be made with other values on both sides. -/
theorem Splices.among {vs ws : List Value} (left right : List Value) (h : Splices vs ws) :
    Splices (left ++ vs ++ right) (left ++ ws ++ right) :=
  h.lift (fun values => left ++ values ++ right) fun _ _ step => step.among left right

/-- Splices lead to the flattened values. -/
theorem splices_flattenAll (vs : List Value) : Splices vs (flattenAll vs) := by
  induction vs using induction_inside with
  | nil => exact .refl
  | leaf v vs hv ih =>
      have hrest := ih.among [v] []
      rw [List.append_nil, List.append_nil] at hrest
      rw [flattenAll_cons_of_isList hv]
      exact hrest
  | list items vs hitems ih =>
      -- The list makes way for its elements, which are spliced before the values behind them.
      have hfirst := hitems.among [] vs
      have hrest := ih.among (flattenAll items) []
      rw [List.append_nil, List.append_nil] at hrest
      rw [flattenAll_cons_list]
      exact (hfirst.trans hrest).head (.here [] items vs)

/-- However many splices are made, the values stand for the same. -/
theorem Splices.flattenAll_eq {vs ws : List Value} (h : Splices vs ws) :
    flattenAll vs = flattenAll ws := by
  induction h with
  | refl => rfl
  | tail _ step ih => exact ih.trans step.flattenAll_eq

/-- Values stand for the same exactly if splices lead from both to the same
values. -/
theorem flattenAll_eq_iff {vs ws : List Value} :
    flattenAll vs = flattenAll ws ↔ ∃ us, Splices vs us ∧ Splices ws us := by
  constructor
  · -- The flattened values are reached from both.
    intro h
    refine ⟨flattenAll vs, splices_flattenAll vs, ?_⟩
    rw [h]
    exact splices_flattenAll ws
  · rintro ⟨us, hvs, hws⟩
    exact hvs.flattenAll_eq.trans hws.flattenAll_eq.symm

end SqlSession.Value
