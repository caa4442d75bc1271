import SqlSession.Proofs.Condition.Grouping

/-!
# `SqlSession.Proofs.Condition.Conjunction`: conditions given one after another

A statement takes the first condition that is given to it as it is, and
puts every later one behind it as a group joined by AND. `conjoin` is
what has become of a sequence of conditions, and `entries_conjoin` says
which entries it has.

Groups joined by AND continue the last run of the first condition, and
no other. `Predicate.holds_conjoin` states the consequence: what was
given later has no say where an earlier run of the first condition
holds. `Predicate.holds_conjoin_iff` is the exact rule for when the whole
means that all of the given conditions hold.
-/

set_option autoImplicit false

namespace SqlSession

namespace Predicate

/-- Conditions given one after another, as one. -/
def conjoin (given : List Predicate) : Predicate := given.foldl merge .empty

/-- A condition as a group behind others. -/
def asEntry (p : Predicate) : Entry := (.and, .group p.entries)

/-- Merged into nothing, a condition is taken over as it is, with its own
connectives at the top. -/
theorem merge_of_isEmpty {p : Predicate} (h : p.isEmpty = true) (added : Predicate) :
    p.merge added = added := by
  rw [merge, if_pos h]

/-- Merged into something, a condition becomes one entry, joined by AND.
One without entries adds none. -/
theorem entries_merge {p : Predicate} (h : p.isEmpty = false) (added : Predicate) :
    (p.merge added).entries = p.entries ++ if added.isEmpty then [] else [added.asEntry] := by
  have hmerge : p.merge added = p.and.addPredicate added := by simp [merge, h]
  rw [hmerge, addPredicate]
  by_cases hadded : added.isEmpty
  · rw [if_pos hadded, if_pos hadded, List.append_nil]
    rfl
  · rw [if_neg hadded, if_neg hadded]
    rfl

/-- The conditions that have entries. -/
def present (given : List Predicate) : List Predicate := given.filter fun q => !q.isEmpty

/-- A condition without entries is passed over. -/
theorem present_cons_of_isEmpty {q : Predicate} (h : q.isEmpty = true) (rest : List Predicate) :
    present (q :: rest) = present rest :=
  List.filter_cons_of_neg (by simp [h])

/-- A condition with entries is kept in its place. -/
theorem present_cons {q : Predicate} (h : q.isEmpty = false) (rest : List Predicate) :
    present (q :: rest) = q :: present rest :=
  List.filter_cons_of_pos (by simp [h])

/-- The conditions that are left are those given that have entries. -/
theorem mem_present {given : List Predicate} {q : Predicate} :
    q ∈ present given ↔ q ∈ given ∧ q.isEmpty = false := by
  simp [present]

/-- Behind a condition with entries, every condition with entries becomes
a group. -/
theorem entries_foldl_merge (given : List Predicate) {p : Predicate} (h : p.isEmpty = false) :
    (given.foldl merge p).entries = p.entries ++ (present given).map asEntry := by
  induction given generalizing p with
  | nil => exact (List.append_nil _).symm
  | cons q rest ih =>
      have hentries := entries_merge h q
      -- What was merged keeps its entries, so the next condition becomes a group too.
      have hnext : (p.merge q).isEmpty = false := by
        rw [isEmpty_eq_false, hentries]
        exact List.append_ne_nil_of_left_ne_nil (isEmpty_eq_false.mp h) _
      rw [List.foldl_cons, ih hnext, hentries]
      cases hq : q.isEmpty with
      | true => rw [present_cons_of_isEmpty hq, if_pos rfl, List.append_nil]
      | false =>
          rw [present_cons hq, if_neg Bool.false_ne_true, List.append_assoc]
          rfl

/-- Before the first condition with entries nothing has any effect. -/
theorem foldl_merge_of_isEmpty (given : List Predicate) {p : Predicate} (h : p.isEmpty = true) :
    (given.foldl merge p).entries = match present given with
      | [] => []
      | first :: later => first.entries ++ later.map asEntry := by
  induction given generalizing p with
  | nil => exact isEmpty_eq_true.mp h
  | cons q rest ih =>
      rw [List.foldl_cons, merge_of_isEmpty h]
      cases hq : q.isEmpty with
      -- A condition without entries leaves the place of the first one free.
      | true => rw [present_cons_of_isEmpty hq, ih hq]
      | false => rw [present_cons hq, entries_foldl_merge rest hq]

/-- Where nothing given has entries, the whole has none. -/
theorem entries_conjoin_nil {given : List Predicate} (h : present given = []) :
    (conjoin given).entries = [] := by
  rw [conjoin, foldl_merge_of_isEmpty given rfl, h]

/-- The entries of the first condition that has some, and a group for
each later one that has some. -/
theorem entries_conjoin {given later : List Predicate} {first : Predicate}
    (h : present given = first :: later) :
    (conjoin given).entries = first.entries ++ later.map asEntry := by
  rw [conjoin, foldl_merge_of_isEmpty given rfl, h]

/-- Merging built conditions into a built one is itself a way to build
one. -/
theorem Built.foldl_merge {given : List Predicate} (h : ∀ q ∈ given, q.Built) {p : Predicate}
    (hp : p.Built) : (given.foldl Predicate.merge p).Built := by
  induction given generalizing p with
  | nil => exact hp
  | cons q rest ih =>
      exact ih (fun r hr => h r (List.mem_cons_of_mem _ hr)) (hp.merge (h q List.mem_cons_self))

/-- In particular what a statement makes of built conditions is built. -/
theorem Built.conjoin {given : List Predicate} (h : ∀ q ∈ given, q.Built) :
    (Predicate.conjoin given).Built :=
  Built.foldl_merge h .empty

end Predicate

/-! ### Truth -/

section Truth
variable (v : Expression → Bool)

/-- Whether a run of entries holds that is not the last one; `run` is the
value of what stands before them in the first run. -/
def earlierHold (run : Bool) : List Entry → Bool
  | [] => false
  | (.and, node) :: rest => earlierHold (run && node.holds v) rest
  | (.or, node) :: rest => run || earlierHold (node.holds v) rest

/-- Whether the last run of entries holds. -/
def lastHolds (run : Bool) : List Entry → Bool
  | [] => run
  | (.and, node) :: rest => lastHolds (run && node.holds v) rest
  | (.or, node) :: rest => lastHolds (node.holds v) rest

namespace Predicate

/-- Whether a run of a predicate holds that is not its last one. -/
def earlierHolds (p : Predicate) : Bool :=
  match p.entries with
  | [] => false
  | (_, node) :: rest => earlierHold v (node.holds v) rest

/-- Whether the last run of a predicate holds. -/
def lastHolds (p : Predicate) : Bool :=
  match p.entries with
  | [] => true
  | (_, node) :: rest => SqlSession.lastHolds v (node.holds v) rest

/-- Groups joined by AND behind a run hold together with it when all of
them hold. -/
theorem laterHold_map_asEntry (run : Bool) (later : List Predicate) :
    laterHold v run (later.map asEntry) = (run && later.all fun q => q.holds v) := by
  induction later generalizing run with
  | nil => exact (Bool.and_true run).symm
  | cons q rest ih =>
      rw [List.map_cons, asEntry, laterHold, ih, List.all_cons, ← Bool.and_assoc]
      rfl

/-- Groups joined by AND continue the last run, and no other. -/
theorem laterHold_append_groups (run : Bool) (entries : List Entry) (later : List Predicate) :
    laterHold v run (entries ++ later.map asEntry)
      = (earlierHold v run entries ||
          (SqlSession.lastHolds v run entries && later.all fun q => q.holds v)) := by
  induction entries generalizing run with
  | nil => exact laterHold_map_asEntry v run later
  | cons entry rest ih =>
      obtain ⟨combinator, node⟩ := entry
      cases combinator with
      | and => exact ih (run && node.holds v)
      | or =>
          -- The run so far is an earlier one from here on.
          rw [List.cons_append, laterHold, ih, earlierHold, SqlSession.lastHolds, Bool.or_assoc]

/-- The truth of a condition with groups behind it: an earlier run decides
alone, the last one needs the groups. -/
theorem entriesHold_append_groups {p : Predicate} (hne : p.isEmpty = false)
    (later : List Predicate) :
    entriesHold v (p.entries ++ later.map asEntry)
      = (p.earlierHolds v || (p.lastHolds v && later.all fun q => q.holds v)) := by
  unfold earlierHolds lastHolds
  match hentries : p.entries with
  | [] => exact absurd hentries (isEmpty_eq_false.mp hne)
  | (combinator, node) :: rest => exact laterHold_append_groups v (node.holds v) rest later

/-- The case without groups. A condition with entries holds in one of its
earlier runs or in its last. -/
theorem holds_eq {p : Predicate} (hne : p.isEmpty = false) :
    p.holds v = (p.earlierHolds v || p.lastHolds v) := by
  have h := entriesHold_append_groups v hne []
  rw [List.map_nil, List.append_nil, List.all_nil, Bool.and_true] at h
  exact h

/-- No entries ask for nothing. -/
theorem holds_of_isEmpty {p : Predicate} (h : p.isEmpty = true) : p.holds v = true := by
  rw [holds, isEmpty_eq_true.mp h]
  rfl

/-- Conditions without entries have no say. -/
theorem all_holds_present (given : List Predicate) :
    (present given).all (fun q => q.holds v) = given.all fun q => q.holds v := by
  induction given with
  | nil => rfl
  | cons q rest ih =>
      cases hq : q.isEmpty with
      | true =>
          rw [present_cons_of_isEmpty hq, List.all_cons, holds_of_isEmpty v hq, ih, Bool.true_and]
      | false => rw [present_cons hq, List.all_cons, List.all_cons, ih]

variable {given later : List Predicate} {first : Predicate}

/-- Conditions given one after another: an earlier run of the first one
is enough, and else its last run and all later conditions must hold. -/
theorem holds_conjoin (h : present given = first :: later) :
    (conjoin given).holds v
      = (first.earlierHolds v || (first.lastHolds v && later.all fun q => q.holds v)) := by
  have hfirst : first.isEmpty = false := (mem_present.mp (h ▸ List.mem_cons_self)).2
  rw [holds, entries_conjoin h]
  exact entriesHold_append_groups v hfirst later

/-- The whole means that all given conditions hold exactly where no
earlier run of the first one holds against the later ones. -/
theorem holds_conjoin_iff (h : present given = first :: later) :
    (conjoin given).holds v = (given.all fun q => q.holds v) ↔
      (first.earlierHolds v = true → (later.all fun q => q.holds v) = true) := by
  have hfirst : first.isEmpty = false := (mem_present.mp (h ▸ List.mem_cons_self)).2
  rw [holds_conjoin v h, ← all_holds_present v given, h, List.all_cons, holds_eq v hfirst]
  cases first.earlierHolds v <;> cases first.lastHolds v <;>
    cases (later.all fun q => q.holds v) <;> decide

/-- Without an OR the first run is the last one, so there is none before
it. -/
theorem earlierHold_eq_false (run : Bool) {entries : List Entry}
    (h : ∀ entry ∈ entries, entry.1 = .and) : earlierHold v run entries = false := by
  induction entries generalizing run with
  | nil => rfl
  | cons entry rest ih =>
      obtain ⟨combinator, node⟩ := entry
      have hand : combinator = .and := h (combinator, node) List.mem_cons_self
      subst hand
      exact ih _ fun e he => h e (List.mem_cons_of_mem _ he)

/-- A predicate without OR has one run. -/
theorem earlierHolds_eq_false {p : Predicate} (h : ∀ entry ∈ p.entries.tail, entry.1 = .and) :
    p.earlierHolds v = false := by
  unfold earlierHolds
  match hentries : p.entries with
  | [] => rfl
  | (combinator, node) :: rest =>
      rw [hentries] at h
      exact earlierHold_eq_false v _ h

end Predicate

end Truth

/-! ### Errors -/

namespace Predicate

/-- Becoming a group does not lose a condition's leaves. -/
theorem mem_entriesLeaves_map_asEntry {given : List Predicate} {q : Predicate} (hq : q ∈ given)
    {e : Expression} (he : e ∈ q.leaves) : e ∈ entriesLeaves (given.map asEntry) :=
  mem_entriesLeaves (List.mem_map_of_mem hq) (show e ∈ (Node.group q.entries).leaves from he)

/-- The leaves of every given condition are among those of the whole. -/
theorem mem_leaves_conjoin {given : List Predicate} {q : Predicate} (hq : q ∈ given)
    {e : Expression} (he : e ∈ q.leaves) : e ∈ (conjoin given).leaves := by
  have hne : q.isEmpty = false := by
    cases h : q.isEmpty with
    | false => rfl
    | true =>
        rw [leaves_eq_nil h] at he
        exact nomatch he
  have hmem : q ∈ present given := mem_present.mpr ⟨hq, hne⟩
  match hgiven : present given with
  | [] =>
      -- The condition is present, so something is.
      rw [hgiven] at hmem
      exact nomatch hmem
  | first :: later =>
      rw [leaves, entries_conjoin hgiven, entriesLeaves_append, List.mem_append]
      rw [hgiven] at hmem
      rcases List.mem_cons.mp hmem with rfl | hlater
      · exact .inl he
      · exact .inr (mem_entriesLeaves_map_asEntry hlater he)

/-- A whole without errors has parts without errors. -/
theorem error?_of_conjoin {given : List Predicate} (h : (conjoin given).error? = none)
    {q : Predicate} (hq : q ∈ given) : q.error? = none :=
  (entriesError?_eq_none q.entries).mpr fun e he =>
    (entriesError?_eq_none (conjoin given).entries).mp h e (mem_leaves_conjoin hq he)

end Predicate

end SqlSession
