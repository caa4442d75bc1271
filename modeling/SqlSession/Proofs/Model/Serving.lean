import Mathlib.Logic.Relation
import SqlSession.Proofs.Model.Effects
import SqlSession.Proofs.Session.Courses

/-!
# `SqlSession.Proofs.Model.Serving`: the courses of a model's operations

An operation touches the memory only in pieces between its calls, and
other tasks may change the memory while it waits. `Flow.Serves` says
what it does there: in each piece the effects that are due happen to the
memory as it is then, and with each answer the effects of that answer
become due. Whatever the operation hands out in the end, it has found in
one of the pieces, each record under the key of the row for which it is
handed out.

`Model.serves` is the main statement: every operation takes such a
course. The lemmas before it go along the parts that operations are made
of: statements, looks at the cache, interning and merging, and the
transaction of an insert, which leaves the memory alone
(`Flow.Still`).
-/

set_option autoImplicit false

namespace SqlSession

variable {π μ α β : Type}

/-- The records that a result hands out. -/
def handed (records : α → List (Record μ)) : Except Error α → List (Record μ)
  | .ok value => records value
  | .error _ => []

/-! ### Courses that leave the memory alone -/

/-- No statement. -/
def Call.Silent : Call → Prop
  | .query .. | .exec .. => False
  | _ => True

/-- A call that runs no statement has no effects. -/
theorem Operation.effects_of_silent (model : Model π μ) (op : Operation μ) (m : Memory π)
    {call : Call} (h : call.Silent) (answer : call.Answer) :
    op.effects model m call answer = [] := by
  cases call with
  | query => exact h.elim
  | exec => exact h.elim
  | begin => rfl
  | finish => rfl
  | sleep => rfl

/-- A course that starts with a memory, runs no statement and does not
touch the memory. -/
def Flow.Still (P : α → Prop) : Memory π → Flow π α → Prop
  | m, .done value scope => scope.memory = m ∧ P value
  | m, .wait scope call resume =>
      scope.memory = m ∧ call.Silent ∧
      ∀ (answer : call.Answer) (later : Scope π), (resume answer later).Still P later.memory

/-- What is known of the result of a course that leaves the memory alone
may be weakened. -/
theorem Flow.Still.imp {P Q : α → Prop} {m : Memory π} {flow : Flow π α} (h : flow.Still P m)
    (hpq : ∀ value, P value → Q value) : flow.Still Q m := by
  induction flow generalizing m with
  | done value scope => exact ⟨h.1, hpq value h.2⟩
  | wait scope call resume ih =>
      obtain ⟨hm, hsilent, hresume⟩ := h
      exact ⟨hm, hsilent, fun answer later => ih answer later (hresume answer later)⟩

namespace Session

/-- To enter a transaction takes calls that open and end transactions, and
no others. -/
theorem still_enterTransaction (scope : Scope π) :
    ((enterTransaction : Action π Stake).run scope).Still (fun _ => True) scope.memory := by
  cases hslot : scope.session.slot with
  | some handle =>
      rw [enterTransaction_of_open hslot]
      exact ⟨rfl, trivial⟩
  | none =>
      rw [enterTransaction_of_idle hslot]
      refine ⟨rfl, trivial, ?_⟩
      intro answer later
      cases answer with
      | error e => exact ⟨rfl, trivial⟩
      | ok handle =>
          cases hlater : later.session.slot with
          | none =>
              simp only [opened, hlater]
              exact ⟨rfl, trivial⟩
          | some other =>
              -- The new transaction is rolled back, which is one more call.
              simp only [opened, hlater]
              refine ⟨rfl, trivial, ?_⟩
              intro answer last
              cases answer with
              | error e => exact ⟨rfl, trivial⟩
              | ok => exact ⟨rfl, trivial⟩

/-- To leave a transaction takes a call that ends it, and makes no other
value. -/
theorem still_leaveTransaction (stake : Stake) (result : Except Error α) (scope : Scope π) :
    ((leaveTransaction stake result : Action π α).run scope).Still
      (fun value => ∀ v, value = .ok v → result = .ok v) scope.memory := by
  cases stake with
  | guest => exact ⟨rfl, fun v h => h⟩
  | owner =>
      cases hslot : scope.session.slot with
      | none =>
          rw [leaveTransaction_of_idle hslot]
          exact ⟨rfl, fun v h => h⟩
      | some handle =>
          rw [leaveTransaction_of_open hslot]
          refine ⟨rfl, trivial, ?_⟩
          intro answer later
          constructor
          · cases answer <;> cases result <;> rfl
          · -- A value that is there afterwards was there before.
            intro v h
            cases result with
            | error e => exact h
            | ok value =>
                cases answer with
                | error e => exact nomatch h
                | ok => exact h

end Session

/-! ### Courses of operations -/

/-- The course of an operation, from a memory and with effects that are
due. Up to the next wait, and to the end, what happens to the memory are
the effects that are due; with each answer those of the answer are due.
`read` are the keys of the rows that the operation has read or inserted,
and `hand` are the records that the task has found so far. What it hands
out in the end is among them, under the keys of the rows that it hands it
out for. -/
def Flow.Serves (model : Model π μ) (op : Operation μ) (records : α → List (Record μ)) :
    List String → List (RowRecord μ) → Memory π → List (Effect μ) → Flow π α → Prop
  | read, hand, m, due, .done value scope =>
      ∃ found, model.Happens m due scope.memory found ∧
        forRows (op.rowKeys model read) (records value) ⊆ found ++ hand
  | read, hand, m, due, .wait scope call resume =>
      ∃ found, model.Happens m due scope.memory found ∧
      -- Others may have changed the memory meanwhile: the next piece starts from what it is then.
      ∀ (answer : call.Answer) (later : Scope π),
        (resume answer later).Serves model op records
          (read ++ internedKeys (op.effects model later.memory call answer)) (found ++ hand)
          later.memory (op.effects model later.memory call answer)
termination_by structural _ _ _ _ flow => flow

section Serves

variable {model : Model π μ} {op : Operation μ} {records : α → List (Record μ)}
  {read : List String} {hand : List (RowRecord μ)} {m : Memory π}

/-- A course that leaves the memory alone, after what was due has
happened. -/
theorem Flow.Still.serves {P : α → Prop} {flow : Flow π α} {m' : Memory π}
    {due : List (Effect μ)} {found : List (RowRecord μ)} (h : flow.Still P m')
    (hdue : model.Happens m due m' found)
    (hrecords : ∀ value, P value →
      forRows (op.rowKeys model read) (records value) ⊆ found ++ hand) :
    flow.Serves model op records read hand m due := by
  -- What is found in this piece is in the hand in the next one, so both are general.
  induction flow generalizing m m' due found hand with
  | done value scope =>
      obtain ⟨rfl, hvalue⟩ := h
      exact ⟨found, hdue, hrecords value hvalue⟩
  | wait scope call resume ih =>
      obtain ⟨rfl, hsilent, hresume⟩ := h
      refine ⟨found, hdue, ?_⟩
      intro answer later
      rw [op.effects_of_silent model _ hsilent, internedKeys_nil, List.append_nil]
      exact ih answer later (hresume answer later) .nothing hrecords

/-- What follows a course that leaves the memory alone. -/
theorem Flow.Still.andThen {P : α → Prop} {flow : Flow π α} {next : α → Scope π → Flow π β}
    {records : β → List (Record μ)} (h : flow.Still P m)
    (hnext : ∀ value (scope : Scope π), P value →
      (next value scope).Serves model op records read hand scope.memory []) :
    (flow.andThen next).Serves model op records read hand m [] := by
  induction flow generalizing m with
  | done value scope =>
      obtain ⟨rfl, hvalue⟩ := h
      exact hnext value scope hvalue
  | wait scope call resume ih =>
      obtain ⟨rfl, hsilent, hresume⟩ := h
      refine ⟨[], .nothing, ?_⟩
      intro answer later
      rw [op.effects_of_silent model _ hsilent, internedKeys_nil, List.append_nil]
      exact ih answer later (hresume answer later)

/-- What leaves the memory alone and hands out the same records, or none,
can follow. -/
theorem Flow.Serves.andThen {flow : Flow π α} {next : α → Scope π → Flow π β}
    {records' : β → List (Record μ)} {due : List (Effect μ)}
    (h : flow.Serves model op records read hand m due)
    (hnext : ∀ value (scope : Scope π),
      (next value scope).Still
        (fun value' => records' value' = records value ∨ records' value' = []) scope.memory) :
    (flow.andThen next).Serves model op records' read hand m due := by
  induction flow generalizing read hand m due with
  | done value scope =>
      obtain ⟨found, hdue, hrecords⟩ := h
      refine (hnext value scope).serves hdue ?_
      rintro value' (hsame | hnone)
      · rw [hsame]
        exact hrecords
      · exact forRows_subset_of_nil hnone _ _
  | wait scope call resume ih =>
      obtain ⟨found, hdue, hresume⟩ := h
      exact ⟨found, hdue, fun answer later => ih answer later (hresume answer later)⟩

/-- What has no effects can come first. -/
theorem Flow.Serves.of_happens {flow : Flow π α} {m' : Memory π} {due : List (Effect μ)}
    (h : flow.Serves model op records read hand m' due) (hfirst : model.Happens m [] m' []) :
    flow.Serves model op records read hand m due := by
  cases flow with
  | done value scope =>
      obtain ⟨found, hdue, hrecords⟩ := h
      exact ⟨found, hfirst.append hdue, hrecords⟩
  | wait scope call resume =>
      obtain ⟨found, hdue, hresume⟩ := h
      exact ⟨found, hfirst.append hdue, hresume⟩

end Serves

/-! ### The operations -/

namespace Model

section Actions

variable {model : Model π μ} {op : Operation μ} {records : α → List (Record μ)}
  {read : List String} {hand : List (RowRecord μ)} {scope : Scope π}

/-- A value that hands out nothing. -/
theorem serves_value {value : α} (h : records value = []) :
    ((pure value : Action π α).run scope).Serves model op (handed records) read hand
      scope.memory [] :=
  ⟨[], .nothing, forRows_subset_of_nil h _ _⟩

/-- An error hands out nothing. -/
theorem serves_error (e : Error) :
    ((throw e : Action π α).run scope).Serves model op (handed records) read hand
      scope.memory [] :=
  ⟨[], .nothing, forRows_subset_of_nil rfl _ _⟩

/-- What fails before anything happens hands out nothing. -/
theorem serves_ofExcept {result : Except Error β} {next : β → Action π α}
    (hnext : ∀ value, result = .ok value →
      ((next value).run scope).Serves model op (handed records) read hand scope.memory []) :
    ((liftM result >>= next : Action π α).run scope).Serves model op (handed records) read hand
      scope.memory [] := by
  cases result with
  | error e => exact serves_error e
  | ok value => exact hnext value rfl

/-- A statement that reads rows, and what is done with them. The keys of
the rows that are interned are those that the operation has read. -/
theorem serves_query {sql : String} {params : List Value} {next : List Row → Action π α}
    (hnext : ∀ (rows : List Row) (later : Scope π),
      ((next rows).run later).Serves model op (handed records)
        (internedKeys (op.readEffects model rows)) hand later.memory (op.readEffects model rows)) :
    ((Session.query sql params >>= next).run scope).Serves model op (handed records) [] hand
      scope.memory [] := by
  show (((Session.query sql params).run scope).andThen _).Serves _ _ _ _ _ _ _
  rw [Session.query_eq]
  refine ⟨[], .nothing, ?_⟩
  intro answer later
  -- A statement that fails or gets no answer has no effects.
  match answer with
  | none => exact serves_error _
  | some (.error e) => exact serves_error _
  | some (.ok rows) => exact hnext rows (later.logged _)

/-- A statement that changes rows, and what is done then. -/
theorem serves_exec {sql : String} {params : List Value} {next : ExecResult → Action π α}
    (hnext : ∀ (result : ExecResult) (later : Scope π),
      ((next result).run later).Serves model op (handed records)
        (internedKeys (op.writeEffects model result later.memory)) hand later.memory
        (op.writeEffects model result later.memory)) :
    ((Session.exec sql params >>= next).run scope).Serves model op (handed records) [] hand
      scope.memory [] := by
  show (((Session.exec sql params).run scope).andThen _).Serves _ _ _ _ _ _ _
  rw [Session.exec_eq]
  refine ⟨[], .nothing, ?_⟩
  intro answer later
  match answer with
  | none => exact serves_error _
  | some (.error e) => exact serves_error _
  | some (.ok result) => exact hnext result (later.logged _)

/-- A call that a statement is built for, and what is done with its
result. The statement is built before the call, and fails alone. -/
theorem serves_built {built : Except Error Query} {call : Query → Action π β}
    {next : β → Action π α}
    (hcall : ∀ query, ((call query >>= next).run scope).Serves model op (handed records) read hand
      scope.memory []) :
    (((liftM built >>= call) >>= next : Action π α).run scope).Serves model op (handed records)
      read hand scope.memory [] := by
  have hassoc : ((liftM built >>= call) >>= next : Action π α) =
      (liftM built >>= fun query => call query >>= next) := bind_assoc _ _ _
  rw [hassoc]
  exact serves_ofExcept fun query _ => hcall query

/-- A statement that reads rows, once it has been built. -/
theorem serves_rowsOf {stmt : Select} {next : List Row → Action π α}
    (hnext : ∀ (rows : List Row) (later : Scope π),
      ((next rows).run later).Serves model op (handed records)
        (internedKeys (op.readEffects model rows)) hand later.memory (op.readEffects model rows)) :
    ((rowsOf stmt >>= next).run scope).Serves model op (handed records) [] hand
      scope.memory [] := by
  unfold rowsOf
  -- How the statement is built makes no difference.
  generalize stmt.draft.query = built
  exact serves_built fun _ => serves_query hnext

/-- A statement that changes rows, once it has been built. -/
theorem serves_execute {stmt : Statement} {next : ExecResult → Action π α}
    (hnext : ∀ (result : ExecResult) (later : Scope π),
      ((next result).run later).Serves model op (handed records)
        (internedKeys (op.writeEffects model result later.memory)) hand later.memory
        (op.writeEffects model result later.memory)) :
    ((Session.execute stmt >>= next).run scope).Serves model op (handed records) [] hand
      scope.memory [] := by
  unfold Session.execute
  generalize stmt.build = built
  exact serves_built fun _ => serves_exec hnext

/-- To intern a row is the effect of having read it, and gives the record
for its key. -/
theorem serves_internRow (row : Row) :
    ((ExceptT.mk (Memory.change (model.internRow row)) : Action π (Record μ)).run scope).Serves
      model op (handed fun record => [record]) (internedKeys (model.internings [row])) hand
      scope.memory (model.internings [row]) := by
  obtain ⟨found, hdue, hrecord⟩ := model.happens_internRow row scope.memory
  refine ⟨found, hdue, ?_⟩
  show forRows _ (handed _ (model.internRow row scope.memory).1) ⊆ found ++ hand
  cases hresult : (model.internRow row scope.memory).1 with
  | error e => exact forRows_subset_of_nil rfl _ _
  | ok record =>
      obtain ⟨key, hkeys, hmem⟩ := hrecord record hresult
      rw [hkeys, Operation.rowKeys_cons]
      exact List.cons_subset.mpr ⟨List.mem_append_left hand hmem, List.nil_subset _⟩

/-- The rows after the first one have no effect. -/
theorem serves_internFirst (rows : List Row) :
    ((model.internFirst rows).run scope).Serves model op (handed fun record => [record])
      (internedKeys (model.internings (rows.take 1))) hand scope.memory
      (model.internings (rows.take 1)) := by
  cases rows with
  | nil => exact serves_error _
  | cons row rest => exact serves_internRow row

/-- To intern rows is the effect of having read them, and gives the record
for the key of each row in its place. -/
theorem serves_internAll (hkeys : ∀ keys, op.rowKeys model keys = keys) (rows : List Row) :
    ((model.internAll rows).run scope).Serves model op (handed id)
      (internedKeys (model.internings rows)) hand scope.memory (model.internings rows) := by
  obtain ⟨found, hdue, hrecords⟩ := model.happens_internRows rows scope.memory
  refine ⟨found, hdue, ?_⟩
  show forRows _ (handed _ (model.internRows rows scope.memory).1) ⊆ found ++ hand
  rw [hkeys]
  cases hresult : (model.internRows rows scope.memory).1 with
  | error e => exact forRows_subset_of_nil rfl _ _
  | ok records => exact List.Subset.trans (hrecords records hresult) (List.subset_append_left _ _)

/-- A look at the cache, and what is done if it finds nothing. It must be
a look for the row that the operation was asked for. -/
theorem serves_lookUp {key : String} (hkey : op.rowKeys model [] = [key])
    {other : Action π (Record μ)}
    (hother : ∀ (later : Scope π), (other.run later).Serves model op (handed fun record => [record])
      [] hand later.memory []) :
    ((do
      match ← (ExceptT.lift (model.lookUp key) : Action π _) with
      | some record => return record
      | none => other : Action π (Record μ)).run scope).Serves model op
        (handed fun record => [record]) [] hand scope.memory [] := by
  have hlooked : model.Happens scope.memory [] (model.cached? key scope.memory).2
      (forRows [key] (model.cached? key scope.memory).1.toList) := .looked key
  show Flow.Serves model op _ [] hand _ _ (ExceptT.run
    (match (model.cached? key scope.memory).1 with
      | some record => pure record
      | none => other) (scope.withMemory (model.cached? key scope.memory).2))
  cases hfound : (model.cached? key scope.memory).1 with
  | some record =>
      -- The record in the cache is what is handed out, for the key that was looked up.
      rw [hfound] at hlooked
      refine ⟨_, hlooked, ?_⟩
      rw [hkey]
      exact List.subset_append_left _ _
  | none =>
      rw [hfound] at hlooked
      exact (hother _).of_happens hlooked

/-- A look at a record, and what is done with its index values. -/
theorem serves_indexOf {record : Record μ} {next : List Value → Action π α}
    (hnext : ∀ index, ((next index).run scope).Serves model op (handed records) read hand
      scope.memory []) :
    ((model.indexOf record >>= next).run scope).Serves model op (handed records) read hand
      scope.memory [] := by
  show (((model.indexOf record).run scope).andThen _).Serves _ _ _ _ _ _ _
  cases hdata : model.data? scope.memory record with
  | none =>
      have hcourse : (model.indexOf record).run scope = .done (.error model.notFound) scope := by
        simp [indexOf, hdata]
      rw [hcourse]
      exact serves_error _
  | some data =>
      have hcourse : (model.indexOf record).run scope
          = .done (.ok (model.indexValues data)) scope := by
        simp [indexOf, hdata]
      rw [hcourse]
      exact hnext (model.indexValues data)

/-- What is merged into a record, and a value that hands out nothing. -/
theorem serves_mergeAndSave {record : Record μ} {written : Row} {value : α}
    {due : List (Effect μ)} (hvalue : records value = [])
    (hdue : due = match model.data? scope.memory record with
      | some before => [.merged record before written]
      | none => []) :
    ((do
      ExceptT.mk (Memory.change (model.mergeAndSave record written))
      return value : Action π α).run scope).Serves model op (handed records) read hand
        scope.memory due := by
  -- Without data the record is unknown and nothing happens. A merge that fails halfway still
  -- happens.
  have hhappens : model.Happens scope.memory due
      (model.mergeAndSave record written scope.memory).2 [] := by
    cases hdata : model.data? scope.memory record with
    | none =>
        rw [hdue, hdata]
        simp only [mergeAndSave, hdata]
        exact .nothing
    | some before =>
        rw [hdue, hdata]
        exact .merged written hdata
  rcases hmerge : model.mergeAndSave record written scope.memory with ⟨result, m⟩
  rw [hmerge] at hhappens
  have hcourse : (ExceptT.run (do
      ExceptT.mk (Memory.change (model.mergeAndSave record written))
      return value : Action π α) scope)
        = .done (result.map fun _ => value) (scope.withMemory m) := by
    simp only [Memory.change, bind_pure_comp, ExceptT.run_map, ExceptT.run_mk, Program.map_apply,
      Program.atomically_apply, hmerge, Flow.done_andThen]
  rw [hcourse]
  refine ⟨[], hhappens, ?_⟩
  cases result with
  | error e => exact forRows_subset_of_nil rfl _ _
  | ok => exact forRows_subset_of_nil hvalue _ _

/-- What forgets the row of a record. -/
theorem serves_forget {record : Record μ} {key : Except Error String} :
    ((do
      let key ← key
      ExceptT.mk do
        Memory.change (forget key)
        return .ok () : Action π Unit).run scope).Serves model op (handed fun _ => []) read hand
          scope.memory [.removed record] := by
  cases key with
  | error e => exact ⟨[], .kept record, forRows_subset_of_nil rfl _ _⟩
  | ok key => exact ⟨[], .forgot record key, forRows_subset_of_nil rfl _ _⟩

/-- What stands in a transaction of its own. -/
theorem serves_runInTransaction {body : Action π α}
    (hbody : ∀ (later : Scope π),
      (body.run later).Serves model op (handed records) read hand later.memory []) :
    ((Session.runInTransaction body).run scope).Serves model op (handed records) read hand
      scope.memory [] := by
  refine (Session.still_enterTransaction scope).andThen fun entered later _ => ?_
  cases entered with
  | error e => exact serves_error e
  | ok stake =>
      -- What the body hands out is handed out, unless the transaction cannot be committed.
      refine (hbody later).andThen fun result last => ?_
      refine (Session.still_leaveTransaction stake result last).imp fun value hvalue => ?_
      cases value with
      | error e => exact .inr rfl
      | ok v =>
          rw [hvalue v rfl]
          exact .inl rfl

end Actions

section Operations

variable (model : Model π μ) {op : Operation μ} {hand : List (RowRecord μ)} {scope : Scope π}

-- Otherwise a course is computed whenever two of them are compared.
attribute [local irreducible] Flow.Serves

/-- To load a record is an operation, and part of another one. -/
theorem serves_load (index : List Value)
    (hreads : ∀ rows, op.readEffects model rows = model.internings (rows.take 1)) :
    ((model.load index).run scope).Serves model op (handed fun record => [record]) [] hand
      scope.memory [] := by
  refine serves_ofExcept fun _ _ => serves_ofExcept fun fields _ =>
    serves_rowsOf fun rows later => ?_
  rw [hreads]
  exact serves_internFirst rows

/-- Selecting for update needs an open transaction, and then reads and
interns like any other selection. -/
theorem serves_selectForUpdate (index : List Value) :
    ((model.selectForUpdate index).run scope).Serves model (.selectForUpdate index)
      (handed fun record => [record]) [] hand scope.memory [] := by
  let locked : Action π (Record μ) := do
    let fields ← model.indexFilter index
    model.internFirst
      (← rowsOf ((model.selection.filter (.fields fields)).withTail "FOR UPDATE"))
  -- Whether a transaction is open is read once, before the first call.
  cases hopen : scope.session.inTransaction with
  | true =>
      have hcourse : (model.selectForUpdate index).run scope = locked.run scope := by
        simp [selectForUpdate, hopen, locked]
      rw [hcourse]
      exact serves_ofExcept fun fields _ => serves_rowsOf fun rows later => serves_internFirst rows
  | false =>
      have hcourse : (model.selectForUpdate index).run scope = (throw <| .transaction
          s!"select for update on {model.table} outside a transaction" : Action π _).run scope := by
        simp [selectForUpdate, hopen]
      rw [hcourse]
      exact serves_error _

/-- Counting and summing hand no record out, and no effect is due to what
they read. -/
theorem serves_aggregate (function name column : String) (filter : Filter)
    (hreads : ∀ rows, op.readEffects model rows = []) :
    ((model.aggregate function name column filter).run scope).Serves model op
      (handed fun _ => []) [] hand scope.memory [] := by
  refine serves_rowsOf fun rows later => ?_
  rw [hreads]
  cases rows with
  | nil => exact serves_error _
  | cons row rest => exact serves_ofExcept fun _ _ => serves_value rfl

/-- An insertion interns the row that was written, and hands out its
record under the key of that row. -/
theorem serves_insert (data : List (String × Value)) (index : List Value) :
    ((model.insert data index).run scope).Serves model (.insert data index)
      (handed fun record => [record]) [] hand scope.memory [] := by
  refine serves_ofExcept fun fields hfields => serves_ofExcept fun built _ => ?_
  refine serves_runInTransaction fun later => serves_exec fun result last => ?_
  -- The row that is interned is the one that the log takes from the answer.
  have hrow : model.insertedRow data index result
      = (Row.mk <$> model.withGeneratedId fields result : Except Error Row) := by
    simp only [insertedRow, hfields]
    rfl
  dsimp only [Operation.writeEffects]
  rw [hrow]
  by_cases hone : result.rowsAffected = 1
  · simp only [hone, bne_self_eq_false, Bool.false_eq_true, if_false, if_true]
    cases model.withGeneratedId fields result with
    | error e => exact serves_error e
    | ok fields => exact serves_internRow ⟨fields⟩
  · simp only [bne_iff_ne, ne_eq, hone, not_false_eq_true, if_false, if_true]
    exact serves_error _

/-- An update merges the written columns if one row was changed. -/
theorem serves_update (record : Record μ) (set : List (String × Value)) :
    ((model.update record set).run scope).Serves model (.update record set)
      (handed fun _ => []) [] hand scope.memory [] := by
  refine serves_indexOf fun index => serves_ofExcept fun fields _ => ?_
  refine serves_execute fun result later => ?_
  dsimp only [Operation.writeEffects]
  by_cases hone : result.rowsAffected = 1
  · simp only [hone, if_true]
    exact serves_mergeAndSave rfl rfl
  · simp only [hone, if_false]
    exact serves_value rfl

/-- Removing forgets the key if a row was hit. -/
theorem serves_remove (record : Record μ) :
    ((model.remove record).run scope).Serves model (.remove record)
      (handed fun _ => []) [] hand scope.memory [] := by
  refine serves_indexOf fun index => serves_ofExcept fun fields _ => ?_
  refine serves_execute fun result later => ?_
  dsimp only [Operation.writeEffects]
  by_cases hnone : result.rowsAffected = 0
  · simp only [hnone, if_true]
    exact serves_error _
  · simp only [hnone, if_false]
    exact serves_forget

/-- The course of an operation brings about the effects of its answers, and
hands out records that it found, for the rows that it found them for. -/
theorem serves (op : Operation μ) (scope : Scope π) :
    ((op.run model).run scope).Serves model op (handed op.records) [] [] scope.memory [] := by
  cases op with
  | queryCache index =>
      refine serves_ofExcept fun key hkey => serves_lookUp ?_ fun later => serves_error _
      simp [Operation.rowKeys, hkey, Except.toOption]
  | select index =>
      refine serves_ofExcept fun key hkey => serves_lookUp ?_ fun later =>
        model.serves_load index fun _ => rfl
      simp [Operation.rowKeys, hkey, Except.toOption]
  | load index => exact model.serves_load index fun _ => rfl
  | selectForUpdate index => exact model.serves_selectForUpdate index
  | selectOne filter => exact serves_rowsOf fun rows later => serves_internFirst rows
  | selectMany filter => exact serves_rowsOf fun rows later => serves_internAll (fun _ => rfl) rows
  | selectOneWithSql sql params => exact serves_query fun rows later => serves_internFirst rows
  | selectManyWithSql sql params =>
      exact serves_query fun rows later => serves_internAll (fun _ => rfl) rows
  | count column filter => exact model.serves_aggregate _ _ _ _ fun _ => rfl
  | sum column filter => exact model.serves_aggregate _ _ _ _ fun _ => rfl
  | insert data index => exact model.serves_insert data index
  | update record set => exact model.serves_update record set
  | remove record => exact model.serves_remove record

end Operations

end Model

end SqlSession
