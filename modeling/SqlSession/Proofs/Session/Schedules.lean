import SqlSession.Proofs.Session.Deadlines

/-!
# `SqlSession.Proofs.Session.Schedules`: runs and races are timelines

The steps of a timeline leave open what comes next. A world has two ways
to choose: `World.run` follows one task to its end, and `World.race`
runs several at once and moves the clock when all of them wait.

* `World.run_reachable`: a caller who runs statements one after another,
  and sets and clears the deadline in between, walks along a timeline
  and gets the replies of its statements.
* `World.race_reachable`: so do statements that are run at once.

What holds of all timelines, `Timeline.deadlines_bound` above all, holds
of these.
-/

set_option autoImplicit false

namespace SqlSession

variable {π α β : Type}

/-! ### Statements one after another -/

/-- What a caller can do next. -/
inductive Act where
  | statement (r : Request)
  | deadline (c : DeadlineCall)

/-- Acts one after another, and the replies of the statements among them. -/
def Act.performAll : List Act → Program π (List Reply)
  | [] => pure []
  | .statement r :: rest => do
      let reply ← r.program
      let replies ← performAll rest
      return reply :: replies
  | .deadline c :: rest => do
      c.program
      performAll rest

/-- The second of two flows starts in the scope and with the connector
that the first one leaves. -/
theorem Flow.finish_andThen (flow : Flow π α) (next : α → Scope π → Flow π β)
    (connector : Script) :
    (flow.andThen next).finish connector
      = (next (flow.finish connector).1 (flow.finish connector).2.scope).finish
          (flow.finish connector).2.connector := by
  induction flow generalizing connector with
  | done value scope => rfl
  | wait scope call resume ih => exact ih _ _ _

/-- So it is with programs that run one after the other. -/
theorem World.run_bind (w : World π) (program : Program π α) (next : α → Program π β) :
    w.run (program >>= next) = (w.run program).2.run (next (w.run program).1) :=
  Flow.finish_andThen (program w.scope) next w.connector

/-- Time does not go back: to wait for what is over is to do nothing. -/
theorem World.advance_of_le {w : World π} {t : Instant} (h : t ≤ w.scope.now) :
    w.advance t = w := by
  have hnow : w.scope.now.later t = w.scope.now := Instant.later_of_ge h
  exact congrArg (fun now => { w with scope := { w.scope with now } }) hnow

/-- To go on with a statement is to go on with its task. -/
theorem Tracked.poll_eq (s : Tracked π) (w : World π) :
    ((s.poll w).1, (s.poll w).2.task) = s.task.poll w := by
  cases htask : s.task with
  | done value =>
      rw [Tracked.poll_of_done htask, htask]
      rfl
  | waiting call ticket resume => simp only [Tracked.poll, htask]

/-- What is done waits for nothing. -/
theorem Task.wake?_of_isSome {task : Task π α} (h : task.value?.isSome) : task.wake? = none := by
  cases task with
  | done value => rfl
  | waiting call ticket resume => exact nomatch h

namespace Timeline

variable {m : Timeline π}

/-- The values of the statements that are done. -/
def values (m : Timeline π) : List (Option Reply) := m.statements.map fun s => s.task.value?

/-- Where all statements are done, the clock moves to the end of a
further one. -/
theorem exists_run (hdone : ∀ s ∈ m.statements, s.task.value?.isSome) (r : Request) :
    ∃ m', Relation.ReflTransGen Step m m' ∧ m'.world = (m.world.run r.program).2 ∧
      m'.values = m.values ++ [some (m.world.run r.program).1] := by
  have hrun := Sent.run_eq_poll m.world r
  have hissue := Step.issue m r
  rw [m.issue_eq r] at hissue
  by_cases hwake : (m.world.sent r).ticket.wake ≤ (m.world.taking r).scope.now
  · -- The statement is done when it is issued, and the clock stands still.
    rw [World.advance_of_le hwake] at hrun
    obtain ⟨hworld, htask⟩ := Prod.mk.inj (((m.first r).poll_eq (m.world.taking r)).trans hrun)
    refine ⟨_, .single hissue, hworld, ?_⟩
    rw [values, List.map_append, List.map_singleton, htask]
    rfl
  · -- It waits, and the clock moves to where it can go on.
    have hpoll : (m.first r).poll (m.world.taking r) = (m.world.taking r, m.first r) := by
      rw [Tracked.poll_of_waiting rfl, (m.first r).poll_early hwake]
      rfl
    rw [hpoll] at hissue
    let arrived := (m.world.taking r).advance (m.world.sent r).ticket.wake
    have htick : Step { world := m.world.taking r, statements := m.statements ++ [m.first r] }
        { world := arrived, statements := m.statements ++ [m.first r] } := by
      refine .tick _ fun s hs wake hwaits => ?_
      rcases List.mem_append.mp hs with hold | hnew
      · rw [Task.wake?_of_isSome (hdone s hold)] at hwaits
        exact nomatch hwaits
      · rw [List.mem_singleton.mp hnew] at hwaits
        rw [← Option.some.inj hwaits]
        exact Instant.le_refl _
    obtain ⟨hworld, htask⟩ := Prod.mk.inj (((m.first r).poll_eq arrived).trans hrun)
    refine ⟨_, .tail (.tail (.single hissue) htick) (.poll m.statements rfl), hworld, ?_⟩
    rw [values, List.map_append, List.map_singleton, htask]
    rfl

/-- Acts one after another, where all earlier statements are done. -/
theorem exists_performAll (hdone : ∀ s ∈ m.statements, s.task.value?.isSome) (acts : List Act) :
    ∃ m', Relation.ReflTransGen Step m m' ∧
      m'.world = (m.world.run (Act.performAll acts)).2 ∧
      m'.values = m.values ++ (m.world.run (Act.performAll acts)).1.map some := by
  induction acts generalizing m with
  | nil => exact ⟨m, .refl, rfl, (List.append_nil _).symm⟩
  | cons act rest ih =>
      cases act with
      | deadline c =>
          have hdeadline : (m.callDeadline c).world = (m.world.run c.program).2 := by
            rw [callDeadline, World.run, c.program_eq]
            rfl
          obtain ⟨m', hsteps, hworld, hvalues⟩ := ih (m := m.callDeadline c) hdone
          refine ⟨m', .head (.callDeadline m c) hsteps, ?_⟩
          rw [Act.performAll, World.run_bind, ← hdeadline]
          exact ⟨hworld, hvalues⟩
      | statement r =>
          obtain ⟨next, hrun, hran, hvalue⟩ := exists_run hdone r
          -- The statement has run to its end, so the rest finds all of them done again.
          have hnext : ∀ s ∈ next.statements, s.task.value?.isSome := by
            intro s hs
            have hmem : s.task.value? ∈ m.values ++ [some (m.world.run r.program).1] :=
              hvalue ▸ List.mem_map_of_mem hs
            rcases List.mem_append.mp hmem with hold | hnew
            · obtain ⟨t, ht, heq⟩ := List.mem_map.mp hold
              exact heq ▸ hdone t ht
            · rw [List.mem_singleton.mp hnew]
              rfl
          obtain ⟨m', hsteps, hworld, hvalues⟩ := ih hnext
          refine ⟨m', hrun.trans hsteps, ?_⟩
          rw [Act.performAll, World.run_bind, World.run_bind, ← hran]
          refine ⟨hworld, ?_⟩
          rw [hvalues, hvalue, List.append_assoc]
          rfl

end Timeline

/-- A caller who runs statements one after another, and sets and clears
the deadline in between, walks along a timeline on which the statements
have the replies that the caller gets. -/
theorem World.run_reachable (w : World π) (acts : List Act) :
    ∃ m : Timeline π, Timeline.Reachable w m ∧ m.world = (w.run (Act.performAll acts)).2 ∧
      m.values = (w.run (Act.performAll acts)).1.map some :=
  Timeline.exists_performAll (m := { world := w }) (fun _ h => nomatch h) acts

/-! ### Statements at once -/

/-- The earliest of some instants and one more. -/
theorem World.foldl_earlier_le (wakes : List Instant) (first : Option Instant) {t : Instant}
    (h : wakes.foldl (fun next wake => some ((next.map wake.earlier).getD wake)) first = some t) :
    (∀ wake ∈ first, t ≤ wake) ∧ ∀ wake ∈ wakes, t ≤ wake := by
  induction wakes generalizing first with
  | nil =>
      refine ⟨fun wake hwake => ?_, fun _ hwake => nomatch hwake⟩
      have hsame : wake = t := Option.some.inj ((Option.mem_def.mp hwake).symm.trans h)
      exact hsame ▸ Instant.le_refl _
  | cons wake rest ih =>
      obtain ⟨hfirst, hrest⟩ := ih _ h
      have hle : t ≤ (first.map wake.earlier).getD wake := hfirst _ rfl
      cases first with
      | none => exact ⟨fun _ hnone => (nomatch hnone), List.forall_mem_cons.mpr ⟨hle, hrest⟩⟩
      | some other =>
          have hboth : t ≤ wake ∧ t ≤ other := Nat.le_min.mp hle
          refine ⟨fun _ hother => ?_, List.forall_mem_cons.mpr ⟨hboth.1, hrest⟩⟩
          exact Option.some.inj hother ▸ hboth.2

/-- The next instant at which something can go on is the first. -/
theorem World.nextWake?_le {tasks : List (Task π α)} {t : Instant}
    (h : nextWake? tasks = some t) : ∀ task ∈ tasks, ∀ wake ∈ task.wake?, t ≤ wake :=
  fun task htask wake hwake =>
    (foldl_earlier_le _ none h).2 wake (List.mem_filterMap.mpr ⟨task, htask, hwake⟩)

namespace Timeline

variable {m : Timeline π}

/-- The tasks of all statements. -/
def tasks (m : Timeline π) : List (Task π Reply) := m.statements.map Tracked.task

/-- To start statements is to issue them. -/
theorem exists_startAll (m : Timeline π) (requests : List Request) :
    ∃ m', Relation.ReflTransGen Step m m' ∧
      let started := m.world.startAll (requests.map Request.program)
      m'.world = started.1 ∧ m'.tasks = m.tasks ++ started.2 := by
  induction requests generalizing m with
  | nil => exact ⟨m, .refl, rfl, (List.append_nil _).symm⟩
  | cons r rest ih =>
      obtain ⟨m', hsteps, hworld, htasks⟩ := ih (m.issue r)
      refine ⟨m', .head (.issue m r) hsteps, hworld, ?_⟩
      rw [htasks, tasks, issue, List.map_append, List.append_assoc]
      rfl

/-- To go on with tasks is to go on with their statements, in order. -/
theorem exists_pollAll {before rest : List (Tracked π)} (h : m.statements = before ++ rest) :
    ∃ m', Relation.ReflTransGen Step m m' ∧
      let polled := m.world.pollAll (rest.map Tracked.task)
      m'.world = polled.1 ∧ m'.tasks = before.map Tracked.task ++ polled.2 := by
  induction rest generalizing m before with
  | nil =>
      refine ⟨m, .refl, rfl, ?_⟩
      rw [tasks, h, List.map_append]
      rfl
  | cons s rest ih =>
      let next : Timeline π :=
        { world := (s.poll m.world).1, statements := before ++ (s.poll m.world).2 :: rest }
      have hnext : next.statements = (before ++ [(s.poll m.world).2]) ++ rest :=
        List.append_cons _ _ _
      obtain ⟨m', hsteps, hworld, htasks⟩ := ih hnext
      refine ⟨m', .head (.poll before h) hsteps, ?_⟩
      rw [List.map_cons, World.pollAll, ← s.poll_eq m.world]
      refine ⟨hworld, ?_⟩
      rw [htasks, List.map_append, List.append_assoc]
      rfl

/-- A round of a race moves the clock and goes on with the statements. -/
theorem exists_loop (rounds : Nat) (m : Timeline π) :
    ∃ m', Relation.ReflTransGen Step m m' ∧
      let ended := World.loop rounds m.world m.tasks
      m'.world = ended.1 ∧ m'.tasks = ended.2 := by
  induction rounds generalizing m with
  | zero => exact ⟨m, .refl, rfl, rfl⟩
  | succ rounds ih =>
      rw [World.loop]
      match hnext : World.nextWake? m.tasks with
      | none => exact ⟨m, .refl, rfl, rfl⟩
      | some t =>
          have htick : Step m { m with world := m.world.advance t } :=
            .tick t fun s hs => World.nextWake?_le hnext s.task (List.mem_map_of_mem hs)
          obtain ⟨polled, hpolled, hworld, htasks⟩ :=
            exists_pollAll (m := { m with world := m.world.advance t }) (List.nil_append _).symm
          obtain ⟨m', hsteps, hended⟩ := ih polled
          refine ⟨m', .head htick (hpolled.trans hsteps), ?_⟩
          rw [hworld, htasks] at hended
          exact hended

end Timeline

/-- Statements that run at once walk along a timeline, and their tasks
are those of the race. -/
theorem World.race_reachable (w : World π) (waits : Nat) (requests : List Request) :
    ∃ m : Timeline π, Timeline.Reachable w m ∧
      let ended := w.race waits (requests.map Request.program)
      m.world = ended.1 ∧ m.tasks = ended.2 := by
  obtain ⟨started, hstarted, hworld, htasks⟩ := Timeline.exists_startAll { world := w } requests
  obtain ⟨m, hsteps, hended⟩ :=
    Timeline.exists_loop (waits * (requests.map (Request.program (π := π))).length) started
  refine ⟨m, hstarted.trans hsteps, ?_⟩
  rw [hworld, htasks] at hended
  exact hended

end SqlSession
