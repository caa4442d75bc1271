import Mathlib.Data.List.DropRight
import SqlSession.Proofs.Statement.Choices

/-!
# `SqlSession.Proofs.Condition.Insertions`: an OR counts for one insertion

A predicate remembers how its next entry will be joined. Callers set
this with `and` and `or`, and every insertion uses it up, also one that
keeps nothing because its argument is blank. `Predicate.Call` lists what
callers can do to a predicate, and `Predicate.performAll` is what a
sequence of calls makes of it.

The combinator that is pending after a history of calls is read off the
history: it is the last choice since the last insertion
(`Predicate.next_performAll`). `Predicate.perform_eq` says what one
insertion adds under the pending combinator.

A clause sets the combinator in the call that adds the group
(`Clause.entries_performAll`), and a statement joins by AND every filter
behind the first that has entries, whatever was pending in that one
(`Conditions.entries_eq`). `or_applies_to_one_insertion` puts the three
together.
-/

set_option autoImplicit false

namespace SqlSession

/-- The node that an insertion makes of a condition, unless it is blank. -/
def Expression.node? (e : Expression) : Option Node :=
  if e.isEmpty then none else some (.leaf e)

/-- The node that an insertion makes of a predicate, unless it is empty. -/
def Predicate.node? (p : Predicate) : Option Node :=
  if p.isEmpty then none else some (.group p.entries)

namespace Predicate

/-! ### Calls -/

/-- The methods of a predicate that insert a single condition. -/
inductive Leaf where
  | equalTo (column : String) (value : Value)
  | notEqualTo (column : String) (value : Value)
  | lessThan (column : String) (value : Value)
  | lessOrEqual (column : String) (value : Value)
  | greaterThan (column : String) (value : Value)
  | greaterOrEqual (column : String) (value : Value)
  | like (column : String) (pattern : Value)
  | notLike (column : String) (pattern : Value)
  | between (column : String) (low high : Value)
  | notBetween (column : String) (low high : Value)
  | inList (column : String) (values : List Value)
  | notInList (column : String) (values : List Value)
  | isNull (column : String)
  | isNotNull (column : String)
  | subquery (sub : String) (values : List Value)
  | noSubquery (sub : String) (values : List Value)
  | template (spec : String) (values : List Value)
  | raw (sql : String)

/-- The condition that a method inserts. -/
def Leaf.expression : Leaf → Expression
  | .equalTo column value => .compare column "=" value
  | .notEqualTo column value => .compare column "!=" value
  | .lessThan column value => .compare column "<" value
  | .lessOrEqual column value => .compare column "<=" value
  | .greaterThan column value => .compare column ">" value
  | .greaterOrEqual column value => .compare column ">=" value
  | .like column pattern => .like column pattern false
  | .notLike column pattern => .like column pattern true
  | .between column low high => .between column low high false
  | .notBetween column low high => .between column low high true
  | .inList column values => .inList column values false
  | .notInList column values => .inList column values true
  | .isNull column => .nullCheck column false
  | .isNotNull column => .nullCheck column true
  | .subquery sub values => .subquery sub values false
  | .noSubquery sub values => .subquery sub values true
  | .template spec values => .template spec values
  | .raw sql => .raw sql

/-- A method that inserts a single condition, called on a predicate. -/
def insertLeaf (p : Predicate) : Leaf → Predicate
  | .equalTo column value => p.equalTo column value
  | .notEqualTo column value => p.notEqualTo column value
  | .lessThan column value => p.lessThan column value
  | .lessOrEqual column value => p.lessOrEqual column value
  | .greaterThan column value => p.greaterThan column value
  | .greaterOrEqual column value => p.greaterOrEqual column value
  | .like column pattern => p.like column pattern
  | .notLike column pattern => p.notLike column pattern
  | .between column low high => p.between column low high
  | .notBetween column low high => p.notBetween column low high
  | .inList column values => p.inList column values
  | .notInList column values => p.notInList column values
  | .isNull column => p.isNull column
  | .isNotNull column => p.isNotNull column
  | .subquery sub values => p.subquery sub values
  | .noSubquery sub values => p.noSubquery sub values
  | .template spec values => p.template spec values
  | .raw sql => p.raw sql

/-- Every method for a single condition adds the condition it is named
for, and nothing else. -/
theorem insertLeaf_eq (p : Predicate) (l : Leaf) :
    p.insertLeaf l = p.addExpression l.expression := by
  cases l <;> rfl

/-- What a caller can do to a predicate. -/
inductive Call where
  | and
  | or
  | leaf (l : Leaf)
  | expression (e : Expression)
  | group (p : Predicate)

/-- One call. -/
def perform (p : Predicate) : Call → Predicate
  | .and => p.and
  | .or => p.or
  | .leaf l => p.insertLeaf l
  | .expression e => p.addExpression e
  | .group q => p.addPredicate q

/-- Calls one after another. -/
def performAll (p : Predicate) (calls : List Call) : Predicate := calls.foldl perform p

/-- Every call but a choice of the combinator attempts an insertion. -/
def Call.isInsertion : Call → Bool
  | .and | .or => false
  | .leaf _ | .expression _ | .group _ => true

/-- The node that a call inserts: none for a choice, and none for a blank
condition or an empty predicate. -/
def Call.node? : Call → Option Node
  | .and | .or => none
  | .leaf l => l.expression.node?
  | .expression e => e.node?
  | .group p => p.node?

/-- The calls since the last insertion that was attempted. -/
def sinceInsertion (history : List Call) : List Call := history.rtakeWhile fun c => !c.isInsertion

/-! ### One call -/

/-- Adding a condition uses up the pending combinator, also where the
condition is blank and no entry is added. -/
theorem addExpression_eq (p : Predicate) (e : Expression) :
    p.addExpression e
      = { entries := p.entries ++ (e.node?.map (Prod.mk p.next)).toList, next := .and } := by
  unfold addExpression Expression.node?
  cases e.isEmpty with
  | true => exact congrArg (Predicate.mk · .and) (List.append_nil _).symm
  | false => rfl

/-- Adding a group does the same. -/
theorem addPredicate_eq (p group : Predicate) :
    p.addPredicate group
      = { entries := p.entries ++ (group.node?.map (Prod.mk p.next)).toList, next := .and } := by
  unfold addPredicate Predicate.node?
  cases group.isEmpty with
  | true => exact congrArg (Predicate.mk · .and) (List.append_nil _).symm
  | false => rfl

/-- An insertion adds at most one entry, with the pending combinator, and
leaves AND pending. -/
theorem perform_eq (p : Predicate) {call : Call} (h : call.isInsertion = true) :
    p.perform call
      = { entries := p.entries ++ (call.node?.map (Prod.mk p.next)).toList, next := .and } := by
  cases call with
  | and => exact nomatch h
  | or => exact nomatch h
  | leaf l => exact (p.insertLeaf_eq l).trans (p.addExpression_eq l.expression)
  | expression e => exact p.addExpression_eq e
  | group q => exact p.addPredicate_eq q

/-- A call adds at most one entry, under the combinator that was pending.
Choosing a combinator adds none. -/
theorem entries_perform (p : Predicate) (call : Call) :
    (p.perform call).entries = p.entries ++ (call.node?.map (Prod.mk p.next)).toList := by
  cases h : call.isInsertion with
  | true => rw [perform_eq p h]
  | false =>
      cases call with
      | and => exact (List.append_nil _).symm
      | or => exact (List.append_nil _).symm
      | leaf l => exact nomatch h
      | expression e => exact nomatch h
      | group q => exact nomatch h

/-! ### Sequences of calls -/

variable {start : Predicate}

/-- The last call of a history is made on what the others have left. -/
theorem performAll_concat (p : Predicate) (history : List Call) (call : Call) :
    p.performAll (history ++ [call]) = (p.performAll history).perform call := by
  rw [performAll, List.foldl_append]
  rfl

/-- OR is pending exactly if it is the last choice since the last
insertion. -/
theorem next_performAll (h : start.next = .and) (history : List Call) :
    (start.performAll history).next = .or ↔ (sinceInsertion history).getLast? = some .or := by
  rcases List.eq_nil_or_concat' history with rfl | ⟨earlier, call, rfl⟩
  · rw [performAll, List.foldl_nil, h]
    exact ⟨nofun, nofun⟩
  -- The last call settles it: an insertion uses up what was pending, a choice replaces it.
  · rw [performAll_concat]
    cases hcall : call.isInsertion with
    | true =>
        have hsince : sinceInsertion (earlier ++ [call]) = [] :=
          List.rtakeWhile_concat_neg _ _ _ (by simp [hcall])
        rw [perform_eq _ hcall, hsince]
        exact ⟨nofun, nofun⟩
    | false =>
        have hsince : sinceInsertion (earlier ++ [call]) = sinceInsertion earlier ++ [call] :=
          List.rtakeWhile_concat_pos _ _ _ (by simp [hcall])
        rw [hsince, List.getLast?_concat]
        cases call with
        | and => exact ⟨nofun, nofun⟩
        | or => exact ⟨fun _ => rfl, fun _ => rfl⟩
        | leaf l => exact nomatch hcall
        | expression e => exact nomatch hcall
        | group q => exact nomatch hcall

/-- The nodes of a predicate are those that its calls inserted, in order. -/
theorem nodes_performAll (p : Predicate) (calls : List Call) :
    (p.performAll calls).entries.map Prod.snd
      = p.entries.map Prod.snd ++ calls.filterMap Call.node? := by
  induction calls generalizing p with
  | nil => exact (List.append_nil _).symm
  | cons call rest ih =>
      have hrest := ih (p.perform call)
      rw [entries_perform, List.map_append] at hrest
      rw [performAll, List.foldl_cons]
      refine hrest.trans ?_
      -- The first call adds its node, if it has one, in front of those of the rest.
      cases hnode : call.node? with
      | none =>
          rw [List.filterMap_cons_none hnode]
          exact congrArg (· ++ _) (List.append_nil _)
      | some node =>
          rw [List.filterMap_cons_some hnode, List.append_assoc]
          rfl

end Predicate

/-! ### Clauses -/

namespace Clause

/-- What a caller can do to a clause. -/
inductive Call where
  | and (filter : Filter) (values : List Value)
  | or (filter : Filter) (values : List Value)

/-- One call. -/
def perform (c : Clause) : Call → Clause
  | .and filter values => c.and filter values
  | .or filter values => c.or filter values

/-- The entry that a call adds: the group of its filter under its own
combinator, unless that group is empty. -/
def Call.entry? : Call → Option Entry
  | .and filter values => (filter.compile values).node?.map (Prod.mk .and)
  | .or filter values => (filter.compile values).node?.map (Prod.mk .or)

/-- A call adds at most one group, under its own combinator. -/
theorem entries_perform (c : Clause) (call : Call) :
    (c.perform call).tree.entries = c.tree.entries ++ call.entry?.toList := by
  cases call with
  | and filter values =>
      exact congrArg Predicate.entries (Predicate.addPredicate_eq { c.tree with next := .and } _)
  | or filter values =>
      exact congrArg Predicate.entries (Predicate.addPredicate_eq { c.tree with next := .or } _)

/-- A clause has the groups of all its calls, in order. -/
theorem entries_performAll (c : Clause) (calls : List Call) :
    (calls.foldl perform c).tree.entries = c.tree.entries ++ calls.filterMap Call.entry? := by
  induction calls generalizing c with
  | nil => exact (List.append_nil _).symm
  | cons call rest ih =>
      rw [List.foldl_cons, ih, entries_perform, List.append_assoc]
      cases hentry : call.entry? with
      | none => rw [List.filterMap_cons_none hentry, Option.toList_none, List.nil_append]
      | some entry =>
          rw [List.filterMap_cons_some hentry]
          rfl

end Clause

/-! ### Statements -/

/-- The first filter with entries is taken as it is, and every later one
is a group joined by AND. -/
theorem Conditions.entries_eq {whole : Predicate} {given : List Given}
    (h : Conditions whole given) :
    whole.entries = match Predicate.present (given.map Given.predicate) with
      | [] => []
      | first :: later => first.entries ++ later.map fun p => (.and, .group p.entries) := by
  rw [h.eq_conjoin]
  exact Predicate.foldl_merge_of_isEmpty _ rfl

/-- A predicate grows by one entry for each call that inserts a node and
keeps its entries in any other call. The new entry is joined by OR
exactly if the last choice since the previous insertion, kept or not,
was OR. A clause keeps the groups of its calls that are not empty, each
under the combinator of its own call. A statement takes the first filter
that has entries as it is and joins every later one by AND. -/
theorem or_applies_to_one_insertion :
    (∀ start : Predicate, start.next = .and → ∀ history : List Predicate.Call,
      (start.performAll history).entries.map Prod.snd
          = start.entries.map Prod.snd ++ history.filterMap Predicate.Call.node? ∧
      ∀ call : Predicate.Call, match call.node? with
        | none =>
            (start.performAll (history ++ [call])).entries = (start.performAll history).entries
        | some node => ∃ combinator,
            (start.performAll (history ++ [call])).entries
              = (start.performAll history).entries ++ [(combinator, node)] ∧
            (combinator = .or ↔
              (Predicate.sinceInsertion history).getLast? = some .or)) ∧
    (∀ (c : Clause) (calls : List Clause.Call),
      (calls.foldl Clause.perform c).tree.entries
        = c.tree.entries ++ calls.filterMap Clause.Call.entry?) ∧
    (∀ (whole : Predicate) (given : List Given), Conditions whole given →
      whole.entries = match Predicate.present (given.map Given.predicate) with
        | [] => []
        | first :: later => first.entries ++ later.map fun p => (.and, .group p.entries)) := by
  refine ⟨fun start hstart history => ⟨start.nodes_performAll history, fun call => ?_⟩,
    Clause.entries_performAll, fun whole given h => h.entries_eq⟩
  have hentries := (start.performAll history).entries_perform call
  rw [← Predicate.performAll_concat] at hentries
  cases hnode : call.node? with
  | none =>
      rw [hnode] at hentries
      exact hentries.trans (List.append_nil _)
  -- The node is joined as the history before the call leaves it pending.
  | some node =>
      rw [hnode] at hentries
      exact ⟨_, hentries, Predicate.next_performAll hstart history⟩

/-- An OR that a blank condition used up, an OR for an empty group of a
clause, and an OR left over in the first filter of a statement: what
comes next is joined by AND. -/
theorem or_applies_to_one_insertion_dangling :
    let a : Expression := .raw "a"
    let b : Expression := .raw "b"
    let history : List Predicate.Call := [.leaf (.raw "a"), .or, .leaf (.raw " ")]
    let clause : Clause := .ofFilter (.text "a") []
    let calls : List Clause.Call := [.or (.fields []) [], .and (.text "b") []]
    let first : Given := ⟨.tree (Predicate.empty.raw "a").or, by
      exact .or (.addExpression .empty (.raw _)), []⟩
    let second : Given := ⟨.tree (Predicate.empty.raw "b"), by
      exact .addExpression .empty (.raw _), []⟩
    let whole := (Delete.ofChoices "t" [.filter first, .filter second]).conditions
    (Predicate.empty.performAll (history ++ [.leaf (.raw "b")])).entries
        = (Predicate.empty.performAll history).entries ++ [(.and, .leaf b)] ∧
      (calls.foldl Clause.perform clause).tree.entries
        = [(.and, .leaf a), (.and, .group [(.and, .leaf b)])] ∧
      first.predicate.next = .or ∧
      whole.entries = [(.and, .leaf a), (.and, .group [(.and, .leaf b)])] := by
  intro a b history clause calls first second whole
  obtain ⟨hcalls, hclause, hstatement⟩ := or_applies_to_one_insertion
  obtain ⟨combinator, hentries, hor⟩ := (hcalls .empty rfl history).2 (.leaf (.raw "b"))
  -- The blank condition has used the OR up, so it is not the last choice since an insertion.
  have hand : combinator = .and := by
    cases combinator with
    | and => rfl
    | or => exact nomatch hor.mp rfl
  refine ⟨hand ▸ hentries, hclause clause calls, rfl, ?_⟩
  exact hstatement whole [first, second] (.delete "t" [.filter first, .filter second])

end SqlSession
