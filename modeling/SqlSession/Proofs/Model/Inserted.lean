import SqlSession.Proofs.Model.Batch
import SqlSession.Proofs.Model.Inserting
import SqlSession.Proofs.Statement.Rows

/-!
# `SqlSession.Proofs.Model.Inserted`: the row that was inserted and its record

The fields of a row go two ways. They are built into a statement before
the transaction begins, and they are read as a row once the statement
was answered, with the generated id among them if there is one.
`insert_writes_returned_row` says that an insert that gives a record has
sent all of the fields in one statement, and that the record is what the
same fields are read as.

Which fields these are is the matter of `Overlaid`: index values are put
over the data one after another, `Overlaid.of_setField` adds one of them,
`overlaid_foldl` goes through all, and `Overlaid.unique` says that no
choice is left.
-/

set_option autoImplicit false

namespace SqlSession

variable {π μ σ : Type}

namespace Model

/-! ### The fields of a row -/

section SetField

variable (fields : List (String × Value)) (name : String) (value : Value)

/-- The names stay in their places, and a new one comes last. -/
theorem names_setField :
    (setField fields name value).map Prod.fst
      = fields.map Prod.fst ++ if name ∈ fields.map Prod.fst then [] else [name] := by
  induction fields with
  | nil => rfl
  | cons field rest ih =>
      obtain ⟨n, v⟩ := field
      unfold setField
      by_cases hn : n = name
      · simp [hn]
      · have hne : ¬name = n := fun h => hn h.symm
        rw [if_neg hn, List.map_cons, ih, List.map_cons, List.cons_append]
        simp only [List.mem_cons, hne, false_or]

/-- The first field of the name has the value. -/
theorem lookup_setField (key : String) :
    (setField fields name value).lookup key
      = if key = name then some value else fields.lookup key := by
  induction fields with
  | nil => exact Insert.lookup_cons key (name, value) []
  | cons field rest ih =>
      obtain ⟨n, v⟩ := field
      unfold setField
      by_cases hn : n = name
      · subst hn
        rw [if_pos rfl, Insert.lookup_cons, Insert.lookup_cons]
        by_cases hkey : key = n <;> simp [hkey]
      · rw [if_neg hn, Insert.lookup_cons, Insert.lookup_cons, ih]
        by_cases hkey : key = n <;> simp [hkey, hn]

/-- A field of another name was there before, and so was a field behind
the first one of its name. -/
theorem getElem?_of_setField {i : Nat} {field : String × Value}
    (h : (setField fields name value)[i]? = some field)
    (hother : field.1 ≠ name ∨
      field.1 ∈ ((setField fields name value).map Prod.fst).take i) :
    fields[i]? = some field := by
  induction fields generalizing i with
  | nil =>
      -- The only field there is has the name, and is not behind any field.
      cases i with
      | zero =>
          obtain rfl : (name, value) = field := Option.some.inj h
          simp at hother
      | succ i => exact nomatch h
  | cons front rest ih =>
      obtain ⟨n, v⟩ := front
      unfold setField at h hother
      by_cases hn : n = name
      · rw [if_pos hn] at h hother
        cases i with
        | zero =>
            obtain rfl : (name, value) = field := Option.some.inj h
            simp at hother
        | succ i => exact h
      · rw [if_neg hn] at h hother
        cases i with
        | zero => exact h
        | succ i =>
            refine ih h ?_
            by_cases hfield : field.1 = name
            · right
              have hfront : ¬name = n := fun heq => hn heq.symm
              simpa [hfield, hfront] using hother
            · exact .inl hfield

end SetField

/-- The fields of a row are the data with given values put over it. -/
structure Overlaid (data given fields : List (String × Value)) : Prop where
  /-- The names of the data stay in their places. Those that the data lacks
  come after them, in the order in which they are given. -/
  names : fields.map Prod.fst = data.map Prod.fst ++
    ((given.map Prod.fst).filter (· ∉ data.map Prod.fst)).eraseDups
  /-- The first field of a name has the value given last, or its own. -/
  first : ∀ name, fields.lookup name = (given.reverse.lookup name).or (data.lookup name)
  /-- Every further field of a name is one of the data, left alone. -/
  others : ∀ (i : Nat) (field : String × Value), fields[i]? = some field →
    field.1 ∈ (fields.map Prod.fst).take i → data[i]? = some field

/-- The first field of a name has the value that the name has. -/
theorem lookup_of_not_mem_take {fields : List (String × Value)} {i : Nat}
    {field : String × Value} (h : fields[i]? = some field)
    (hfirst : field.1 ∉ (fields.map Prod.fst).take i) : fields.lookup field.1 = some field.2 := by
  induction fields generalizing i with
  | nil =>
      rw [List.getElem?_nil] at h
      exact nomatch h
  | cons front rest ih =>
      rw [Insert.lookup_cons]
      cases i with
      | zero =>
          obtain rfl : front = field := Option.some.inj h
          rw [if_pos rfl]
      | succ i =>
          rw [List.map_cons, List.take_succ_cons, List.mem_cons, not_or] at hfirst
          rw [if_neg hfirst.1]
          exact ih h hfirst.2

/-- There is one way to put values over data. -/
theorem Overlaid.unique {data given fields fields' : List (String × Value)}
    (h : Overlaid data given fields) (h' : Overlaid data given fields') : fields = fields' := by
  have hnames : fields.map Prod.fst = fields'.map Prod.fst := h.names.trans h'.names.symm
  -- Position by position: the names agree, so what is left are the values.
  refine List.ext_getElem? fun i => ?_
  have hname : fields[i]?.map Prod.fst = fields'[i]?.map Prod.fst := by
    rw [← List.getElem?_map, ← List.getElem?_map, hnames]
  cases hfield : fields[i]? with
  | none =>
      rw [hfield] at hname
      exact (Option.map_eq_none_iff.mp hname.symm).symm
  | some field =>
      rw [hfield] at hname
      obtain ⟨field', hfield', heq⟩ := Option.map_eq_some_iff.mp hname.symm
      rw [hfield']
      by_cases hrepeated : field.1 ∈ (fields.map Prod.fst).take i
      · -- Behind another field of its name, both have what the data has in this place.
        have hdata := h.others i field hfield hrepeated
        have hdata' := h'.others i field' hfield' (by rw [heq, ← hnames]; exact hrepeated)
        exact hdata.symm.trans hdata'
      · -- The first field of its name has the value that is looked up, and lookups agree.
        have hvalue := lookup_of_not_mem_take hfield hrepeated
        have hvalue' := lookup_of_not_mem_take hfield' (by rw [heq, ← hnames]; exact hrepeated)
        rw [h'.first, heq, ← h.first, hvalue] at hvalue'
        exact congrArg some (Prod.ext heq.symm (Option.some.inj hvalue'))

/-- A value that is put over the data before others counts as the first of
those that are given. -/
theorem Overlaid.of_setField {data rest fields : List (String × Value)} {name : String}
    {value : Value} (h : Overlaid (setField data name value) rest fields) :
    Overlaid data ((name, value) :: rest) fields where
  names := by
    rw [h.names, names_setField, List.map_cons]
    by_cases hmem : name ∈ data.map Prod.fst
    · -- The name is there already, so it is not one of those that come after.
      rw [if_pos hmem, List.append_nil, List.filter_cons_of_neg (by simpa using hmem)]
    · have hrest : (rest.map Prod.fst).filter (· ∉ data.map Prod.fst ++ [name])
          = ((rest.map Prod.fst).filter (· ∉ data.map Prod.fst)).filter (!· == name) := by
        rw [List.filter_filter]
        refine List.filter_congr fun other _ => ?_
        rw [Bool.eq_iff_iff]
        simp [not_or, and_comm]
      rw [if_neg hmem, hrest, List.filter_cons_of_pos (by simpa using hmem), List.eraseDups_cons,
        List.append_assoc, List.singleton_append]
  first := by
    intro key
    rw [h.first, lookup_setField, List.reverse_cons, List.lookup_append, Option.or_assoc,
      Insert.lookup_cons, List.lookup_nil]
    by_cases hkey : key = name <;> simp [hkey]
  others := by
    intro i field hfield hbehind
    have hbefore := h.others i field hfield hbehind
    have hi : i ≤ ((setField data name value).map Prod.fst).length := by
      obtain ⟨hlt, -⟩ := List.getElem?_eq_some_iff.mp hbefore
      rw [List.length_map]
      omega
    -- The names in front of the field are those that were there before the others were put.
    rw [h.names, List.take_append_of_le_length hi] at hbehind
    exact getElem?_of_setField data name value hbefore (.inr hbehind)

/-- Values put over the data one after another. -/
theorem overlaid_foldl (data given : List (String × Value)) :
    Overlaid data given
      (given.foldl (fun data (name, value) => setField data name value) data) := by
  induction given generalizing data with
  | nil => exact ⟨by simp, fun _ => rfl, fun _ _ h _ => h⟩
  | cons field rest ih =>
      rw [List.foldl_cons]
      exact (ih (setField data field.1 field.2)).of_setField

/-- The given index values are as many as the index fields, or none. They
are put over the data. -/
theorem overlaid_insertFields {model : Model π μ} {data fields : List (String × Value)}
    {index : List Value} (h : model.insertFields data index = .ok fields) :
    (index = [] ∨ index.length = model.indexFields.length) ∧
      Overlaid data (model.indexFields.zip index) fields := by
  unfold insertFields indexFilter at h
  cases index with
  | nil =>
      obtain rfl : data = fields := Except.ok.inj h
      rw [List.zip_nil_right]
      exact ⟨.inl rfl, overlaid_foldl data []⟩
  | cons value rest =>
      by_cases hlength : (value :: rest).length = model.indexFields.length
      · simp only [hlength] at h
        obtain rfl := Except.ok.inj h
        exact ⟨.inr hlength, overlaid_foldl data _⟩
      · simp only [hlength] at h
        exact nomatch h

example : Sample.member.insertFields
    [("login", .text "ann"), ("role", .null), ("login", .text "bob")] [.uint 7, .text "cy"]
      = .ok [("login", .text "cy"), ("role", .null), ("login", .text "bob"), ("org", .uint 7)] := by
  rfl

/-- The row of some fields as it is stored: with a generated id at the
end, if the index is a single field that is not among them. -/
inductive Completed (model : Model π μ) (fields : List (String × Value)) (result : ExecResult) :
    List (String × Value) → Prop where
  | generated {field : String} {id : UInt64} (hindex : model.indexFields = [field])
      (hlacks : field ∉ fields.map Prod.fst) (hid : result.lastInsertId = some id) :
      Completed model fields result (fields ++ [(field, .uint id)])
  | given (h : ∀ field, model.indexFields = [field] → field ∈ fields.map Prod.fst) :
      Completed model fields result fields

/-- The fields that an insert stores are its own, with the generated id
where it is needed. -/
theorem completed_withGeneratedId {model : Model π μ} {fields stored : List (String × Value)}
    {result : ExecResult} (h : model.withGeneratedId fields result = .ok stored) :
    model.Completed fields result stored := by
  unfold withGeneratedId at h
  split at h
  · next field hindex =>
    split at h
    · next hany =>
      obtain rfl := Except.ok.inj h
      refine .given fun field' hindex' => ?_
      obtain rfl := (List.cons.inj (hindex.symm.trans hindex')).1
      simpa using hany
    · next hany =>
      split at h
      · next id hid =>
        obtain rfl := Except.ok.inj h
        exact .generated hindex (by simpa using hany) hid
      · exact nomatch h
  · next hindex =>
    obtain rfl := Except.ok.inj h
    exact .given fun field hfield => absurd hfield (hindex field)

/-- The statement that inserts a row has the names of its fields as
columns and their values as parameters. -/
theorem query_of_row {table : String} {fields : List (String × Value)} {built : Query}
    (h : (({ table } : Insert).addRow fields).draft.query = .ok built) :
    built = ⟨Insert.heading table (fields.map Prod.fst) ++ Insert.marks (fields.map Prod.fst),
      fields.map Prod.snd⟩ := by
  let ins : Insert :=
    { table := table, columns := fields.map Prod.fst, rows := [fields.map Prod.snd] }
  have hrow : ({ table } : Insert).addRow fields = ins := Insert.addRow_of_nil rfl fields
  rw [hrow] at h
  cases hfields : fields with
  | nil =>
      -- Without fields there are no columns, and no statement.
      subst hfields
      exact nomatch h
  | cons field rest =>
      have hcolumns : ins.columns ≠ [] := by simp [ins, hfields]
      have hbuild := Insert.build_eq (List.cons_ne_nil _ _) hcolumns
      obtain rfl := Except.ok.inj (h.symm.trans hbuild)
      rw [← hfields]
      simp [ins]

/-! ### The statement and its answer -/

/-- The exchanges of one call in a transaction: the call alone where a
transaction is open, and in a transaction of its own, which is committed,
where none is. -/
def InTransaction (slot : Option Handle) (handle : Handle) (x : Exchange)
    (trace : List Exchange) : Prop :=
  (slot = some handle ∧ trace = [x]) ∨
  (slot = none ∧ trace = [⟨.begin, .ok handle⟩, x, ⟨.finish handle .commit, .ok ()⟩])

section Succeeding

variable {model : Model π μ} {env : Environment σ} {s : σ} {scope : Scope π}
  {fields : List (String × Value)} {built : Query} {record : Record μ}

/-- An insert inside a transaction that gives a record: one row was
inserted, and the row with its id was interned. -/
theorem insertion_succeeded
    (h : (((model.insertion fields built).run scope).alone env s).value = .ok record) :
    let run := ((model.insertion fields built).run scope).alone env s
    ∃ result stored, run.trace = [⟨.exec scope.session.slot built.sql built.params
        scope.session.deadline, some (.ok result)⟩] ∧
      result.rowsAffected = 1 ∧ model.withGeneratedId fields result = .ok stored ∧
      model.internRow ⟨stored⟩ scope.memory = (.ok record, run.scope.memory) := by
  obtain ⟨-, answer, htrace, ⟨e, hvalue, -⟩ | ⟨result, stored, rfl, hone, hstored, hrow⟩⟩ :=
    model.insertion_alone fields built env s scope
  · cases h.symm.trans hvalue
  · rw [h] at hrow
    exact ⟨result, stored, htrace, hone, hstored, hrow⟩

/-- The same for an insert that asks for a transaction. -/
theorem runInTransaction_succeeded
    (h : (((Session.runInTransaction (model.insertion fields built)).run scope).alone env s).value
      = .ok record) :
    let run := ((Session.runInTransaction (model.insertion fields built)).run scope).alone env s
    ∃ handle result stored, InTransaction scope.session.slot handle
        ⟨.exec (some handle) built.sql built.params scope.session.deadline, some (.ok result)⟩
        run.trace ∧
      result.rowsAffected = 1 ∧ model.withGeneratedId fields result = .ok stored ∧
      model.internRow ⟨stored⟩ scope.memory = (.ok record, run.scope.memory) := by
  intro run
  cases hslot : scope.session.slot with
  | some handle =>
      -- The transaction that is open is the one the statement runs in.
      have hbody : run = ((model.insertion fields built).run scope).alone env s := by
        show ((Session.runInTransaction _).run scope).alone env s = _
        rw [Session.runInTransaction_of_open hslot]
      rw [Session.runInTransaction_of_open hslot] at h
      obtain ⟨result, stored, htrace, hrest⟩ := insertion_succeeded h
      rw [hslot, ← hbody] at htrace
      rw [← hbody] at hrest
      exact ⟨handle, result, stored, .inl ⟨rfl, htrace⟩, hrest⟩
  | none =>
      rcases Session.runInTransaction_alone hslot env s
          (fun start s => (model.insertion_alone fields built env s start).1) with
        ⟨e, -, hvalue, -⟩ | ⟨handle, now, s', inner, ended, hinner, htrace, hvalue, hmemory⟩
      · cases h.symm.trans hvalue
      · -- The record comes out only if the transaction is committed.
        obtain ⟨hresult, rfl⟩ := Session.of_resultOf_eq_ok (hvalue.symm.trans h)
        obtain ⟨result, stored, hexec, hone, hstored, hrow⟩ :=
          insertion_succeeded (hinner ▸ hresult)
        rw [hinner] at hexec hrow
        rw [hexec, hresult] at htrace
        exact ⟨handle, result, stored, .inr ⟨rfl, htrace⟩, hone, hstored, hmemory ▸ hrow⟩

end Succeeding

/-! ### The record -/

section Interned

variable {model : Model π μ} {m m' : Memory π} {record : Record μ} {payload : μ} {key : String}

/-- Interned data is what its record has, and the record is cached under
the key, if there is any room. -/
theorem internAt_self (hsound : m.Sound) (key : String) (payload : μ) :
    model.data? (model.internAt key payload m).2 (model.internAt key payload m).1 = some payload ∧
      (m.cache.capacity ≠ 0 →
        (model.internAt key payload m).2.cache.Holds key (model.internAt key payload m).1.id) := by
  obtain ⟨l, hl⟩ := hsound.refines
  have hstored {cache : IdentityCache RecordId} {id : RecordId}
      (hcache : cache.Refines (l.store key id)) (hroom : m.cache.capacity ≠ 0) :
      cache.Holds key id :=
    hcache.ranks.holds_iff.mpr (Lru.mem_store_self (hl.capacity ▸ hroom))
  obtain ⟨id, before, cache, hheld, -, hcache, heq⟩ | ⟨cache, -, hcache, heq⟩ :=
    internAt_cases hsound hl key payload
  · rw [heq]
    exact ⟨data?_write_self cache (hsound.made key id hheld), hstored hcache⟩
  · rw [heq]
    exact ⟨data?_add_next cache, hstored hcache⟩

/-- The record of a row has what the row is read as, and is cached under
its key, if there is any room. -/
theorem internRow_ok (hsound : m.Sound) {row : Row}
    (h : model.internRow row m = (.ok record, m')) :
    ∃ payload key, model.fromRow row = .ok payload ∧ model.keyOf payload = .ok key ∧
      model.data? m' record = some payload ∧
      (m.cache.capacity ≠ 0 → m'.cache.Holds key record.id) := by
  rw [internRow_eq, identified] at h
  cases hpayload : model.fromRow row with
  | error e =>
      rw [hpayload] at h
      exact nomatch h
  | ok payload =>
      cases hkey : model.keyOf payload with
      | error e =>
          rw [hpayload] at h
          simp [hkey, Except.map] at h
      | ok key =>
          rw [hpayload] at h
          simp only [hkey, Except.map, Prod.mk.injEq, Except.ok.injEq] at h
          obtain ⟨rfl, rfl⟩ := h
          exact ⟨payload, key, rfl, hkey, internAt_self hsound key payload⟩

/-- A cached record is selected without a call. -/
theorem select_of_holds {scope : Scope π} (hsound : scope.memory.Sound)
    (hkey : model.keyOf payload = .ok key) (hheld : scope.memory.cache.Holds key record.id)
    (hdata : model.data? scope.memory record = some payload) :
    ∃ later, (model.select (model.indexValues payload)).run scope = .done (.ok record) later := by
  have hfound : (model.cached? key scope.memory).1 = some record :=
    cached?_of_holds hsound hheld (Option.isSome_iff_exists.mpr ⟨payload, hdata⟩)
  have hindex : model.key (model.indexValues payload) = .ok key := hkey
  have hlookUp : model.lookUp key scope
      = .done (some record) (scope.withMemory (model.cached? key scope.memory).2) := by
    rw [← hfound]
    rfl
  refine ⟨scope.withMemory (model.cached? key scope.memory).2, ?_⟩
  rw [select, hindex, ofExcept_ok_bind]
  simp [hlookUp]

end Interned

/-! ### The whole insert -/

/-- An insert that gives a record has made one statement, in a
transaction, which inserted one row: the data with the index values put
over it, each field under its name and each value as a parameter. The
record has what these same fields are read as, with the generated id
among them if the index is a single field that they lack. It is cached
under the key of what it has, if there is any room, and is selected from
there without a call. -/
theorem insert_writes_returned_row {model : Model π μ} {data : List (String × Value)}
    {index : List Value} {env : Environment σ} {s : σ} {scope : Scope π} {record : Record μ}
    (hsound : scope.memory.Sound)
    (h : (((model.insert data index).run scope).alone env s).value = .ok record) :
    let run := ((model.insert data index).run scope).alone env s
    ∃ fields handle result stored payload key,
      (index = [] ∨ index.length = model.indexFields.length) ∧
      Overlaid data (model.indexFields.zip index) fields ∧
      InTransaction scope.session.slot handle
        ⟨.exec (some handle)
          (Insert.heading model.table (fields.map Prod.fst) ++ Insert.marks (fields.map Prod.fst))
          (fields.map Prod.snd) scope.session.deadline, some (.ok result)⟩ run.trace ∧
      result.rowsAffected = 1 ∧
      model.Completed fields result stored ∧
      model.fromRow ⟨stored⟩ = .ok payload ∧
      model.data? run.scope.memory record = some payload ∧
      model.keyOf payload = .ok key ∧
      (scope.memory.cache.capacity ≠ 0 → run.scope.memory.cache.Holds key record.id ∧
        ∃ later, (model.select (model.indexValues payload)).run run.scope
          = .done (.ok record) later) := by
  intro run
  have hafter : run.scope.memory.Sound :=
    Operation.sound_alone model (.insert data index) hsound env s
  rcases model.insert_cases data index scope with
    ⟨e, hcourse⟩ | ⟨fields, built, hfields, hbuilt, hcourse⟩
  · -- What fails before its first call gives no record.
    rw [hcourse] at h
    exact nomatch h
  · have hrun : run = ((Session.runInTransaction (model.insertion fields built)).run scope).alone
        env s := congrArg (Flow.alone env · s) hcourse
    obtain ⟨hindex, hoverlaid⟩ := overlaid_insertFields hfields
    rw [hcourse] at h
    obtain ⟨handle, result, stored, htrace, hone, hstored, hrow⟩ := runInTransaction_succeeded h
    rw [← hrun] at htrace hrow
    obtain ⟨payload, key, hpayload, hkey, hdata, hheld⟩ := internRow_ok hsound hrow
    obtain rfl := query_of_row hbuilt
    exact ⟨fields, handle, result, stored, payload, key, hindex, hoverlaid, htrace, hone,
      completed_withGeneratedId hstored, hpayload, hdata, hkey,
      fun hroom => ⟨hheld hroom, select_of_holds hafter hkey (hheld hroom) hdata⟩⟩

/-- A user is inserted without an id, which is generated. -/
theorem insert_writes_returned_row_generated :
    let data : List (String × Value) := [("name", .text "carol"), ("visits", .int 0)]
    let scope : Scope Sample.Payload := ⟨.start, .ofConfig {}, .empty, []⟩
    let env : Environment Unit := { reply := fun s t call =>
      match call with
      | .begin => ((.ok ⟨3⟩, t), s)
      | .finish .. => ((.ok (), t), s)
      | .query .. => ((none, t), s)
      | .exec .. => ((some (.ok ⟨1, some 9⟩), t), s)
      | .sleep _ => (((), t), s) }
    let run := ((Sample.user.insert data []).run scope).alone env ()
    scope.memory.Sound ∧ run.value = .ok ⟨0⟩ ∧
      (∃ handle result stored,
        InTransaction none handle ⟨.exec (some handle)
          "INSERT INTO \x60users\x60(\x60name\x60, \x60visits\x60) VALUES(?,?)"
          [.text "carol", .int 0] none, some (.ok result)⟩ run.trace ∧
        result.rowsAffected = 1 ∧ Sample.user.Completed data result stored ∧
        Sample.user.fromRow ⟨stored⟩ = .ok ⟨9, "carol", 0⟩) ∧
      run.scope.memory.cache.Holds "users\x60u9" 0 ∧
      ∃ later, (Sample.user.select [.int 9]).run run.scope = .done (.ok ⟨0⟩) later := by
  intro data scope env run
  have hsound : scope.memory.Sound := .of_empty rfl
  have hvalue : run.value = .ok ⟨0⟩ := by rfl
  obtain ⟨fields, handle, result, stored, payload, key, -, hfields, htrace, hone, hstored, hpayload,
    hdata, hkey, hcached⟩ := Sample.user.insert_writes_returned_row hsound hvalue
  -- What the statement says of some fields, payload and key is now read off for these ones.
  obtain rfl : data = fields := (overlaid_foldl data []).unique hfields
  have hread : Sample.user.data? run.scope.memory ⟨0⟩ = some ⟨9, "carol", 0⟩ := by decide +kernel
  obtain rfl : payload = ⟨9, "carol", 0⟩ := Option.some.inj (hdata.symm.trans hread)
  have hkey' : Sample.user.keyOf ⟨9, "carol", 0⟩ = .ok "users\x60u9" := by decide +kernel
  obtain rfl : key = "users\x60u9" := Except.ok.inj (hkey.symm.trans hkey')
  obtain ⟨hheld, hselect⟩ := hcached (by decide)
  have hsql : Insert.heading "users" (data.map Prod.fst) ++ Insert.marks (data.map Prod.fst)
      = "INSERT INTO \x60users\x60(\x60name\x60, \x60visits\x60) VALUES(?,?)" := by decide +kernel
  exact ⟨hsound, hvalue, ⟨handle, result, stored, hsql ▸ htrace, hone, hstored, hpayload⟩, hheld,
    hselect⟩

end Model

end SqlSession
