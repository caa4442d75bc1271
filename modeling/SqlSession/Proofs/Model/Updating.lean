import SqlSession.Proofs.Model.Soundness
import SqlSession.Proofs.Model.Writing
import SqlSession.Sample.Models

/-!
# `SqlSession.Proofs.Model.Updating`: what an update does to the records

An update merges what was written into the record that it is given, and
caches this record under the key of the row. `update_alone` says that this
is all that it does, and that it does it only if exactly one row was
changed.

The record that it is given need not be the one that the row has in the
cache: the row may have been put out and read again, or removed and added
again. Then there are two records of the row, and the one that was given
takes the place of the other, which keeps the data that it had
(`update_recaches`, and `update_exchanges_record` for a run).

An update that fails leaves the memory as it was, unless it fails after
its row was changed, because a column cannot be merged or the new data has
no key. Then the record keeps what was merged, and the cache stays as it
was (`update_failed`, and `failed_update_half_merged` for a run).
-/

set_option autoImplicit false

namespace SqlSession

variable {π μ σ : Type}

namespace Model

variable {model : Model π μ} {record : Record μ} {set : List (String × Value)}
  {env : Environment σ} {s : σ} {scope : Scope π}

/-- An update on its own. Unless its statement changed exactly one row, the
memory stays as it was. Otherwise what was written is merged into the
record, and the record is cached. -/
theorem update_alone (model : Model π μ) (record : Record μ) (set : List (String × Value))
    (env : Environment σ) (s : σ) (scope : Scope π) :
    let run := ((model.update record set).run scope).alone env s
    (run.scope.memory = scope.memory ∧ run.value ≠ .ok 1 ∧
      ∀ x ∈ run.trace, ∀ result, x.result? = some result →
        run.value = .ok result.rowsAffected) ∨
    ∃ before, model.data? scope.memory record = some before ∧
      (∃ x ∈ run.trace, ∃ result, x.result? = some result ∧ result.rowsAffected = 1) ∧
      run.value = (model.mergeAndSave record (writtenRow set) scope.memory).1.map (fun _ => 1) ∧
      run.scope.memory = (model.mergeAndSave record (writtenRow set) scope.memory).2 := by
  rw [update_eq]
  rcases writeRow_alone env s with hunwritten |
    ⟨before, result, later, s', hbefore, hmemory, hvalue, hscope, x, hx, htrace⟩
  · obtain ⟨⟨e, hvalue⟩, hmemory, hresults⟩ := hunwritten
    refine .inl ⟨hmemory, ?_, ?_⟩
    · rw [hvalue]
      exact nofun
    · intro x hx result hresult
      rw [hresults x hx] at hresult
      exact nomatch hresult
  · -- The statement was carried out, and the number of rows decides.
    dsimp only
    rw [hvalue, hscope, htrace, refresh_run]
    by_cases hone : result.rowsAffected = 1
    · rw [if_pos hone, hmemory]
      exact .inr ⟨before, hbefore, ⟨x, List.mem_cons_self, result, hx, hone⟩, rfl, rfl⟩
    · rw [if_neg hone]
      refine .inl ⟨hmemory, ?_, ?_⟩
      · intro hvalue
        exact hone (Except.ok.inj hvalue)
      · -- The trace is the statement alone.
        intro y hy result' hresult
        rw [List.mem_singleton.mp hy, hx] at hresult
        cases hresult
        rfl

/-! ### An update that succeeds -/

/-- What an update of one row leaves if it succeeds. -/
theorem memory_of_updated
    (hone : (((model.update record set).run scope).alone env s).value = .ok 1) :
    ∃ before key, model.data? scope.memory record = some before ∧
      let after := model.merged (writtenRow set) before
      model.keyOf after = .ok key ∧
      (((model.update record set).run scope).alone env s).scope.memory =
        save key record
          ⟨scope.memory.cache, scope.memory.records.write record.id (model.wrap after)⟩ := by
  rcases update_alone model record set env s scope with ⟨-, hother, -⟩ |
    ⟨before, hbefore, -, hvalue, hmemory⟩
  · exact absurd hone hother
  · rcases mergeAndSave_cases (writtenRow set) hbefore with ⟨e, -, heq⟩ | ⟨key, hkey, heq⟩
    · rw [hone, heq] at hvalue
      exact nomatch hvalue
    · rw [heq] at hmemory
      exact ⟨before, key, hbefore, hkey, hmemory⟩

/-- An update of one row of which some record is cached, by any record of
the row. Afterwards the record that was given is the one that is cached,
and it has what was written merged into its data. No other record has
other data than before, and no other key has another record. So the row
keeps its record in the cache if and only if this is the one that was
given. -/
theorem update_recaches {cached : Record μ} {before : μ} {key : String}
    (hsound : scope.memory.Sound) (hbefore : model.data? scope.memory record = some before)
    (hkey : model.keyOf before = .ok key)
    (hcached : (model.cached? key scope.memory).1 = some cached)
    (hkeeps : model.keyOf (model.merged (writtenRow set) before) = model.keyOf before)
    (hone : (((model.update record set).run scope).alone env s).value = .ok 1) :
    let run := ((model.update record set).run scope).alone env s
    (model.cached? key run.scope.memory).1 = some record ∧
    model.data? run.scope.memory record = some (model.merged (writtenRow set) before) ∧
    (∀ other, other ≠ record →
      model.data? run.scope.memory other = model.data? scope.memory other) ∧
    (∀ key' id, key' ≠ key →
      (run.scope.memory.cache.Holds key' id ↔ scope.memory.cache.Holds key' id)) ∧
    ((model.cached? key run.scope.memory).1 = some cached ↔ record = cached) := by
  intro run
  obtain ⟨before', key', hbefore', hkey', hmemory⟩ := memory_of_updated hone
  cases hbefore.symm.trans hbefore'
  cases (hkey'.symm.trans hkeeps).trans hkey
  -- The row has its key still, so the entry that is there is used anew.
  have hheld : scope.memory.cache.Holds key cached.id := (of_cached? hcached).1
  have hwritten := hsound.write record.id (model.wrap (model.merged (writtenRow set) before))
  have hafter : run.scope.memory = ⟨scope.memory.cache.renew key record.id,
      scope.memory.records.write record.id (model.wrap (model.merged (writtenRow set) before))⟩ :=
    hmemory.trans (save_of_holds hwritten hheld record)
  have hdata : model.data? run.scope.memory record
      = some (model.merged (writtenRow set) before) := by
    rw [hafter]
    exact data?_write_self _ (id_lt_of_data? hbefore)
  have hnow : (model.cached? key run.scope.memory).1 = some record := by
    have hsound' : run.scope.memory.Sound :=
      Operation.sound_alone model (.update record set) hsound env s
    refine cached?_of_holds hsound' ?_ (Option.isSome_iff_exists.mpr ⟨_, hdata⟩)
    rw [hafter]
    exact IdentityCache.holds_renew.mpr
      (.inl ⟨rfl, rfl, IdentityCache.mem_keys_iff.mpr ⟨_, hheld⟩⟩)
  refine ⟨hnow, hdata, ?_, ?_, ?_⟩
  · intro other hne
    rw [hafter]
    exact data?_write_ne _ fun hid => hne (Record.eq_of_id hid)
  · intro key' id hne
    rw [hafter]
    simp [IdentityCache.holds_renew, hne]
  · rw [hnow, Option.some.injEq]

/-- A user is read, removed and read again, and then updated by the record
from before. -/
theorem update_recaches_removed :
    ∃ (start : Scope Sample.Payload) (env : Environment Unit),
      start.memory.Sound ∧ (Sample.user.cached? "users`u1" start.memory).1 = some ⟨1⟩ ∧
      Sample.user.data? start.memory ⟨0⟩ = some ⟨1, "ann", 0⟩ ∧
      let run := ((Sample.user.update ⟨0⟩ [("name", .text "bob")]).run start).alone env ()
      run.value = .ok 1 ∧ (Sample.user.cached? "users`u1" run.scope.memory).1 = some ⟨0⟩ ∧
      Sample.user.data? run.scope.memory ⟨0⟩ = some ⟨1, "bob", 0⟩ ∧
      Sample.user.data? run.scope.memory ⟨1⟩ = some ⟨1, "ann", 0⟩ := by
  let env := Environment.willing fun _ => [⟨[("id", .int 1), ("name", .text "ann")]⟩]
  obtain ⟨start, hsound, hcached, hdata, hother, hone⟩ : ∃ start : Scope Sample.Payload,
      start.memory.Sound ∧ (Sample.user.cached? "users`u1" start.memory).1 = some ⟨1⟩ ∧
      Sample.user.data? start.memory ⟨0⟩ = some ⟨1, "ann", 0⟩ ∧
      Sample.user.data? start.memory ⟨1⟩ = some ⟨1, "ann", 0⟩ ∧
      (((Sample.user.update ⟨0⟩ [("name", .text "bob")]).run start).alone env ()).value
        = .ok 1 := by
    let scope : Scope Sample.Payload := ⟨.start, .ofConfig {}, .empty, []⟩
    have hempty : scope.memory.Sound := .of_empty rfl
    -- Soundness is carried over the three operations of the past, one by one.
    have hread := (Operation.load [.int 1]).sound_alone Sample.user hempty env ()
    have hremoved := (Operation.remove ⟨0⟩).sound_alone Sample.user hread env ()
    have hagain := (Operation.load [.int 1]).sound_alone Sample.user hremoved env ()
    exact ⟨_, hagain, by decide +kernel⟩
  have hkey : Sample.user.keyOf ⟨1, "ann", 0⟩ = .ok "users`u1" := by decide +kernel
  have hmerged : Sample.user.merged (writtenRow [("name", .text "bob")]) ⟨1, "ann", 0⟩
      = ⟨1, "bob", 0⟩ := by decide +kernel
  have hkeeps : Sample.user.keyOf ⟨1, "bob", 0⟩ = Sample.user.keyOf ⟨1, "ann", 0⟩ := by
    decide +kernel
  obtain ⟨hnow, hdata', hothers, -, -⟩ :=
    update_recaches hsound hdata hkey hcached (hmerged ▸ hkeeps) hone
  rw [hmerged] at hdata'
  have hold := (hothers ⟨1⟩ (by decide)).trans hother
  exact ⟨start, env, hsound, hcached, hdata, hone, hnow, hdata', hold⟩

/-- A session with room for one record. A user is read, put out by another
one, and read again, so that there are two records of it, and then updated
by the first of them. The first record is cached then in place of the
second one, which still has the old name. -/
theorem update_exchanges_record :
    ∃ (scope : Scope Sample.Payload) (env : Environment Unit), scope.memory.cache.entries = [] ∧
      let reads : Action Sample.Payload (Record Sample.User × Record Sample.User) := do
        let record ← Sample.user.select [.int 1]
        let _ ← Sample.user.select [.int 2]
        let cached ← Sample.user.select [.int 1]
        return (record, cached)
      let start := (reads.run scope).alone env ()
      start.value = .ok (⟨0⟩, ⟨2⟩) ∧
      (Sample.user.cached? "users`u1" start.scope.memory).1 = some ⟨2⟩ ∧
      let run := ((Sample.user.update ⟨0⟩ [("name", .text "bob")]).run start.scope).alone env ()
      run.value = .ok 1 ∧
      (Sample.user.cached? "users`u1" run.scope.memory).1 = some ⟨0⟩ ∧
      Sample.user.data? run.scope.memory ⟨2⟩ = some ⟨1, "ann", 0⟩ := by
  let scope : Scope Sample.Payload := ⟨.start, .ofConfig { cacheCapacity := 1 }, .empty, []⟩
  let env := Environment.willing fun params =>
    [⟨[("id", params.headD .null), ("name", .text "ann")]⟩]
  exact ⟨scope, env, rfl, by decide +kernel⟩

/-! ### An update that fails -/

/-- A failed update leaves the memory as it was, and its statement was not
carried out, except when it fails afterwards. Then exactly one row was
changed, and a column cannot be merged, or the new data has no key. The
record has the data that the merge left, and nothing is cached or put
out. -/
theorem update_failed {e : Error}
    (h : (((model.update record set).run scope).alone env s).value = .error e) :
    let run := ((model.update record set).run scope).alone env s
    (run.scope.memory = scope.memory ∧ ∀ x ∈ run.trace, x.result? = none) ∨
    ∃ before, model.data? scope.memory record = some before ∧
      (∃ x ∈ run.trace, ∃ result, x.result? = some result ∧ result.rowsAffected = 1) ∧
      let after := model.merged (writtenRow set) before
      ((model.mergeRow (writtenRow set)).run before = .error e after ∨
        model.keyOf after = .error e) ∧
      run.scope.memory =
        { scope.memory with
          records := scope.memory.records.write record.id (model.wrap after) } := by
  dsimp only
  rcases update_alone model record set env s scope with ⟨hmemory, -, htrace⟩ |
    ⟨before, hbefore, hchanged, hvalue, hmemory⟩
  · -- A statement that was carried out would have given the update a value.
    refine .inl ⟨hmemory, ?_⟩
    intro x hx
    cases hresult : x.result? with
    | none => rfl
    | some result => exact nomatch h.symm.trans (htrace x hx result hresult)
  · right
    refine ⟨before, hbefore, hchanged, ?_⟩
    rw [h] at hvalue
    rcases mergeAndSave_cases (writtenRow set) hbefore with ⟨e', hreason, heq⟩ | ⟨key, -, heq⟩
    · rw [heq] at hvalue hmemory
      cases hvalue
      exact ⟨hreason, hmemory⟩
    · rw [heq] at hvalue
      exact nomatch hvalue

/-- A member that is given an empty login. The row is changed, and so is the
data of the record, but the member has no key then, and the cache stays as
it was. -/
theorem update_failed_without_key :
    ∃ (start : Scope Sample.Payload) (env : Environment Unit),
      Sample.member.data? start.memory ⟨0⟩ = some ⟨2, "ann", none⟩ ∧
      let run := ((Sample.member.update ⟨0⟩ [("login", .text "")]).run start).alone env ()
      run.value = .error
        (.cacheKey "empty string index value for table `org.members AS m`") ∧
      run.scope.memory.cache = start.memory.cache ∧
      Sample.member.data? run.scope.memory ⟨0⟩ = some ⟨2, "", none⟩ := by
  let env := Environment.willing fun _ =>
    [⟨[("org", .uint 2), ("login", .text "ann"), ("role", .null)]⟩]
  let scope : Scope Sample.Payload := ⟨.start, .ofConfig {}, .empty, []⟩
  let start := (((Sample.member.load [.uint 2, .text "ann"]).run scope).alone env ()).scope
  let run := ((Sample.member.update ⟨0⟩ [("login", .text "")]).run start).alone env ()
  have hfailed : run.value = .error
      (.cacheKey "empty string index value for table `org.members AS m`") := by decide +kernel
  have hcarried : (run.trace.any fun x => x.result?.isSome) = true := by decide +kernel
  have hdata : Sample.member.data? start.memory ⟨0⟩ = some ⟨2, "ann", none⟩ ∧
      Sample.member.data? run.scope.memory ⟨0⟩ = some ⟨2, "", none⟩ := by decide +kernel
  rcases update_failed hfailed with ⟨-, hnot⟩ | ⟨before, -, -, -, hmemory⟩
  · -- This is not an update whose statement was not carried out.
    obtain ⟨x, hx, hsome⟩ := List.any_eq_true.mp hcarried
    rw [hnot x hx] at hsome
    exact nomatch hsome
  · have hcache : run.scope.memory.cache = start.memory.cache := by rw [hmemory]
    exact ⟨start, env, hdata.1, hfailed, hcache, hdata.2⟩

/-- A user that is given a new name and, as the number of visits, a text.
The update fails, and the record has the new name. -/
theorem failed_update_half_merged :
    ∃ (start : Scope Sample.Payload) (env : Environment Unit),
      Sample.user.data? start.memory ⟨0⟩ = some ⟨1, "ann", 3⟩ ∧
      let run := ((Sample.user.update ⟨0⟩ [("name", .text "bob"), ("visits", .text "x")]).run
        start).alone env ()
      run.value = .error (.decode "visits" (.mismatch "integer" "text")) ∧
      Sample.user.data? run.scope.memory ⟨0⟩ = some ⟨1, "bob", 3⟩ := by
  let env := Environment.willing fun _ =>
    [⟨[("id", .int 1), ("name", .text "ann"), ("visits", .int 3)]⟩]
  let scope : Scope Sample.Payload := ⟨.start, .ofConfig {}, .empty, []⟩
  let start := (((Sample.user.load [.int 1]).run scope).alone env ()).scope
  exact ⟨start, env, by decide +kernel⟩

end Model

end SqlSession
