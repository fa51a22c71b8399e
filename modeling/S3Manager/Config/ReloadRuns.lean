import S3Manager.Config.Reload

/-! What every run of loads and one save keeps, as long as its steps respect the
save, and what a run that does not respect it can do. -/

set_option autoImplicit false

namespace S3Manager.Config

open Python Library

section Writes

variable {saved original migrated cached : Dict} {process next : Process} {call : Nat}

theorem invariant_inside (holds : ReloadInvariant saved original migrated cached process)
    {state later : Locked} (held : process.lock = some (call, state))
    (loads : next.loads = process.loads) (lock : next.lock = some (call, later))
    (cache : next.cache = [] ∨ Known saved migrated cached next.cache)
    (visible : process.cache ≠ [] → next.cache ≠ [])
    (knows : next.Holds saved original migrated later)
    (file : next.FileOk saved original migrated) (settled : next.CacheOk saved) :
    ReloadInvariant saved original migrated cached next where
  cache := cache
  holder := by
    intro holder locked same
    obtain ⟨rfl, -⟩ := Prod.mk.inj (Option.some.inj (lock.symm.trans same))
    rw [loads]
    exact holds.holder call state held
  holds := by
    intro holder locked same
    obtain ⟨-, rfl⟩ := Prod.mk.inj (Option.some.inj (lock.symm.trans same))
    exact knows
  outside := by
    intro other
    rw [loads]
    exact outside_frame visible (holds.outside other)
  file := file
  settled := settled

theorem invariant_save (holds : ReloadInvariant saved original migrated cached process)
    (loads : next.loads = process.loads) (lock : next.lock = process.lock)
    (cache : next.cache = [] ∨ Known saved migrated cached next.cache)
    (visible : process.cache ≠ [] → next.cache ≠ [])
    (knows : ∀ holder state, process.lock = some (holder, state) →
      process.Holds saved original migrated state → next.Holds saved original migrated state)
    (file : next.FileOk saved original migrated) (settled : next.CacheOk saved) :
    ReloadInvariant saved original migrated cached next where
  cache := cache
  holder := by
    intro holder locked same
    rw [loads]
    exact holds.holder holder locked (lock.symm.trans same)
  holds := by
    intro holder locked same
    have before := lock.symm.trans same
    exact knows holder locked before (holds.holds holder locked before)
  outside := by
    intro other
    rw [loads]
    exact outside_frame visible (holds.outside other)
  file := file
  settled := settled

theorem holds_save {state : Locked} (knows : process.Holds saved original migrated state)
    (started : process.save ≠ .idle) (later : process.fileMtime ≤ next.fileMtime)
    (visible : process.cache ≠ [] → next.cache ≠ [])
    (published : next.save = .timing ∨ next.save = .done → next.cache = saved) :
    next.Holds saved original migrated state := by
  have before : ∀ mtime, process.Before mtime → next.Before mtime := fun mtime known =>
    ⟨le_trans known.1 later, fun _ => lt_of_lt_of_le (known.2 started) later⟩
  cases state with
  | entered => trivial
  | rechecking | reading => exact le_trans knows later
  | migrating config mtime =>
      obtain same | ⟨which, known, idle | same⟩ := knows
      · exact .inl same
      · exact absurd idle started
      · exact .inr ⟨which, before _ known, .inr same⟩
  | persisting | caching => exact absurd knows.2 started
  | dumping => exact absurd knows.2.1 started
  | timing => exact ⟨visible knows.1, published⟩
  | publishing config mtime =>
      obtain same | ⟨same, known⟩ := knows
      · exact .inl same
      · exact .inr ⟨same, before _ known⟩
  | recording config mtime =>
      refine ⟨visible knows.1, ?_⟩
      obtain ⟨same, -⟩ | ⟨same, known⟩ := knows.2
      · exact .inl ⟨same, published⟩
      · exact .inr ⟨same, before _ known⟩
  | returning => exact visible knows

theorem before_later {mtime : Nat} (before : process.Before mtime)
    (later : process.fileMtime < next.fileMtime) : next.Before mtime :=
  ⟨le_trans before.1 later.le, fun _ => lt_of_le_of_lt before.1 later⟩

end Writes

section Step

variable {environ : Environ} {size : Dict → Nat} {saved original migrated cached : Dict}
  {modified : Bool} {process next : Process}

theorem nonempty_of_stays (stays : migrateConfig environ saved = .ok (saved, false)) :
    saved ≠ [] :=
  complete_nonempty (migrateConfig_ok stays).1

theorem nonempty_of_moves (moves : migrateConfig environ original = .ok (migrated, modified)) :
    migrated ≠ [] :=
  complete_nonempty (migrateConfig_ok moves).1

theorem read_config (holds : ReloadInvariant saved original migrated cached process)
    {call mtime : Nat} (held : process.lock = some (call, .reading mtime))
    (respects : process.save ≠ .dumping) :
    ∃ config, process.file.load = .ok config ∧
      process.Holds saved original migrated (.migrating config mtime) := by
  have file := holds.file
  have known : mtime ≤ process.fileMtime := holds.holds _ _ held
  unfold Process.FileOk at file
  cases save : process.save with
  | idle =>
      have before : process.Before mtime := ⟨known, fun started => absurd save started⟩
      rw [save] at file
      obtain first | second | ⟨-, holder, config, dumping⟩ := file
      · exact ⟨original, by rw [first]; rfl, .inr ⟨.inl rfl, before, .inl save⟩⟩
      · exact ⟨migrated, by rw [second]; rfl, .inr ⟨.inr rfl, before, .inl save⟩⟩
      · rw [held] at dumping
        cases dumping
  | dumping => exact absurd save respects
  | caching | timing | done =>
      rw [save] at file
      exact ⟨saved, by rw [file]; rfl, .inl rfl⟩

theorem migrate_config (stays : migrateConfig environ saved = .ok (saved, false))
    (moves : migrateConfig environ original = .ok (migrated, modified))
    {config : Dict} {mtime : Nat}
    (knows : process.Holds saved original migrated (.migrating config mtime)) :
    ∃ after changed, migrateConfig environ config = .ok (after, changed) ∧
      (changed = true → after = migrated ∧ process.save = .idle) ∧
      process.Holds saved original migrated (.publishing after mtime) := by
  obtain rfl | ⟨rfl | rfl, before, early⟩ := knows
  · exact ⟨config, false, stays, by simp, .inl rfl⟩
  · refine ⟨migrated, modified, moves, ?_, .inr ⟨rfl, before⟩⟩
    intro changed
    refine ⟨rfl, ?_⟩
    obtain idle | same := early
    · exact idle
    · rw [same] at moves
      have again := (migrateConfig_again moves).symm.trans moves
      simp only [Except.ok.injEq, Prod.mk.injEq] at again
      rw [← again.2] at changed
      cases changed
  · exact ⟨config, false, migrateConfig_again moves, by simp, .inr ⟨rfl, before⟩⟩

/-- One step that respects the save keeps the invariant. -/
theorem reload_step (stays : migrateConfig environ saved = .ok (saved, false))
    (moves : migrateConfig environ original = .ok (migrated, modified)) {mover : Mover}
    (holds : ReloadInvariant saved original migrated cached process)
    (respects : Respects environ saved process mover)
    (step : ReloadStep environ size saved process mover next) :
    ReloadInvariant saved original migrated cached next := by
  have savedFull := nonempty_of_stays stays
  have migratedFull := nonempty_of_moves moves
  cases step with
  | start force idle =>
      exact invariant_move holds (by rw [idle]; simp) trivial
  | fresh checking current =>
      exact invariant_move holds (by rw [checking]; simp) (cache_of_current current)
  | outdated checking _ =>
      exact invariant_move holds (by rw [checking]; simp) trivial
  | @answer call returning =>
      refine invariant_move holds (by rw [returning]; simp) (cache_known holds ?_)
      have visible := holds.outside call
      rw [returning] at visible
      exact visible
  | acquire _ free => exact invariant_acquire holds _ free
  | stat held => exact invariant_advance holds held (by simp [Locked.Owes]) (le_refl _)
  | current held current =>
      exact invariant_advance holds held (by simp [Locked.Owes]) (cache_of_current current)
  | reload held _ =>
      have known := holds.holds _ _ held
      exact invariant_advance holds held (by simp [Locked.Owes]) known
  | @read call mtime config held found =>
      have quiet : process.save ≠ .dumping := by
        simp only [Respects, held] at respects
        exact respects trivial
      obtain ⟨other, same, knows⟩ := read_config holds held quiet
      obtain rfl := Except.ok.inj (found.symm.trans same)
      exact invariant_advance holds held (by simp [Locked.Owes]) knows
  | @readFails call mtime exc held fails =>
      have quiet : process.save ≠ .dumping := by
        simp only [Respects, held] at respects
        exact respects trivial
      obtain ⟨other, same, -⟩ := read_config holds held quiet
      cases fails.symm.trans same
  | @migrate call mtime config after held result =>
      obtain ⟨other, changed, same, early, -⟩ := migrate_config stays moves (holds.holds _ _ held)
      have agree := result.symm.trans same
      simp only [Except.ok.injEq, Prod.mk.injEq] at agree
      obtain ⟨rfl, rfl⟩ := agree
      exact invariant_advance holds held (by simp [Locked.Owes]) (early rfl)
  | @migrateNothing call mtime config after held result =>
      obtain ⟨other, changed, same, -, knows⟩ := migrate_config stays moves (holds.holds _ _ held)
      have agree := result.symm.trans same
      simp only [Except.ok.injEq, Prod.mk.injEq] at agree
      obtain ⟨rfl, rfl⟩ := agree
      exact invariant_advance holds held (by simp [Locked.Owes]) knows
  | migrateFails held fails =>
      obtain ⟨other, changed, same, -, -⟩ := migrate_config stays moves (holds.holds _ _ held)
      cases fails.symm.trans same
  | @truncate call mtime config held later =>
      obtain ⟨rfl, idle⟩ := holds.holds _ _ held
      refine invariant_inside holds held rfl rfl holds.cache id ⟨rfl, idle, rfl⟩ ?_ ?_
      · simp only [Process.FileOk, Process.advance, idle]
        exact .inr (.inr ⟨trivial, call, _, rfl⟩)
      · simp [Process.CacheOk, Process.advance, idle]
  | @dump call mtime config held later =>
      obtain ⟨rfl, idle, empty⟩ := holds.holds _ _ held
      refine invariant_inside holds held rfl rfl holds.cache id ⟨rfl, idle⟩ ?_ ?_
      · simp [Process.FileOk, Process.advance, idle, empty, FileContent.dump]
      · simp [Process.CacheOk, Process.advance, idle]
  | @cache call config held =>
      obtain ⟨rfl, idle⟩ := holds.holds _ _ held
      have file : (process.advance call .timing).FileOk saved original config :=
        fileOk_advance holds.file held id
      refine invariant_inside holds held rfl rfl (.inr (.inr (.inl rfl))) (fun _ => migratedFull)
        ⟨migratedFull, ?_⟩ file ?_
      · simp [Process.advance, idle]
      · simp [Process.CacheOk, Process.advance, idle]
  | @time call held =>
      obtain ⟨visible, settled⟩ := holds.holds _ _ held
      have file : (process.advance call .returning).FileOk saved original migrated :=
        fileOk_advance holds.file held id
      refine invariant_inside holds held rfl rfl holds.cache id visible file ?_
      unfold Process.CacheOk
      cases save : process.save with
      | timing => simpa [Process.advance, save] using settled
      | done => simp [Process.advance, save, settled (.inr save)]
      | _ => simp [Process.advance, save]
  | @publish call mtime config held =>
      have knows := holds.holds _ _ held
      have visible : config ≠ [] := by
        obtain rfl | ⟨rfl, -⟩ := knows
        · exact savedFull
        · exact migratedFull
      have known : Known saved migrated cached config := by
        obtain rfl | ⟨rfl, -⟩ := knows
        · exact .inl rfl
        · exact .inr (.inl rfl)
      have file : (process.advance call (.recording config mtime)).FileOk saved original migrated :=
        fileOk_advance holds.file held id
      refine invariant_inside holds held rfl rfl (.inr known) (fun _ => visible) ⟨visible, ?_⟩
        file ?_
      · obtain rfl | migrates := knows
        · exact .inl ⟨rfl, fun _ => rfl⟩
        · exact .inr migrates
      · unfold Process.CacheOk
        cases save : process.save with
        | timing =>
            simp only [Respects, held] at respects
            simpa [Process.advance, save] using respects trivial save
        | done =>
            obtain rfl | ⟨rfl, -, early⟩ := knows
            · simp [Process.advance, save]
            · have older := early (by simp [save])
              simp only [Process.advance, save]
              exact .inr (.inr ⟨call, config, mtime, rfl, older⟩)
        | _ => simp [Process.advance, save]
  | @record call mtime config held =>
      obtain ⟨visible, knows⟩ := holds.holds _ _ held
      refine invariant_inside holds held rfl rfl holds.cache id visible ?_ ?_
      · have file := holds.file
        unfold Process.FileOk at file ⊢
        cases save : process.save with
        | idle =>
            rw [save] at file
            obtain first | second | ⟨-, holder, other, dumping⟩ := file
            · simp [Process.advance, save, first]
            · simp [Process.advance, save, second]
            · rw [held] at dumping
              cases dumping
        | _ => simpa [Process.advance, save] using file
      · have settled := holds.settled
        unfold Process.CacheOk at settled ⊢
        cases save : process.save with
        | timing =>
            rw [save] at settled
            simpa [Process.advance, save] using settled
        | done =>
            obtain ⟨-, same⟩ | ⟨-, -, early⟩ := knows
            · simpa [Process.advance, save] using Or.inl (same (.inr save))
            · have older := early (by simp [save])
              simp only [Process.advance, save]
              exact .inr (.inl older)
        | _ => simp [Process.advance, save]
  | @answerLocked call held =>
      have visible := holds.holds _ _ held
      exact invariant_leave holds held id (cache_known holds visible)
  | @saveTruncate mtime idle later =>
      have early := respects idle
      refine invariant_save holds rfl rfl holds.cache id ?_ rfl ?_
      · intro holder state held knows
        have calm := early holder state held
        cases state with
        | entered => trivial
        | rechecking | reading => exact le_trans knows later.le
        | migrating config mtime =>
            obtain rfl | ⟨which, before, -⟩ := knows
            · exact .inl rfl
            · refine .inr ⟨which, before_later before later, .inr ?_⟩
              obtain rfl | rfl := which
              · have unchanged : modified = false := by
                  cases flag : modified with
                  | false => rfl
                  | true => exact absurd ⟨migrated, flag ▸ moves⟩ calm
                exact ((migrateConfig_ok moves).2 unchanged).symm
              · rfl
        | persisting | dumping | caching => exact absurd trivial calm
        | timing => exact ⟨knows.1, by simp⟩
        | publishing config mtime =>
            obtain rfl | ⟨rfl, before⟩ := knows
            · exact .inl rfl
            · exact .inr ⟨rfl, before_later before later⟩
        | recording config mtime =>
            refine ⟨knows.1, ?_⟩
            obtain ⟨rfl, -⟩ | ⟨rfl, before⟩ := knows.2
            · exact .inl ⟨rfl, by simp⟩
            · exact .inr ⟨rfl, before_later before later⟩
        | returning => exact knows
      · simp [Process.CacheOk]
  | @saveDump mtime dumping later =>
      have empty := holds.file
      unfold Process.FileOk at empty
      rw [dumping] at empty
      refine invariant_save holds rfl rfl holds.cache id ?_ ?_ ?_
      · intro holder state held knows
        exact holds_save knows (by simp [dumping]) later.le id (by simp)
      · simp [Process.FileOk, empty, FileContent.dump]
      · simp [Process.CacheOk]
  | saveCache caching =>
      refine invariant_save holds rfl rfl (.inr (.inl rfl)) (fun _ => savedFull) ?_ ?_ rfl
      · intro holder state held knows
        exact holds_save knows (by simp [caching]) (le_refl _) (fun _ => savedFull) fun _ => rfl
      · have file := holds.file
        unfold Process.FileOk at file ⊢
        rw [caching] at file
        exact file
  | saveTime timing =>
      have file := holds.file
      unfold Process.FileOk at file
      rw [timing] at file
      have settled := holds.settled
      unfold Process.CacheOk at settled
      rw [timing] at settled
      refine invariant_save holds rfl rfl holds.cache id ?_ file (.inl settled)
      · intro holder state held knows
        exact holds_save knows (by simp [timing]) (le_refl _) id fun _ => settled

end Step

section Runs

variable {environ : Environ} {size : Dict → Nat} {saved original migrated : Dict}
  {modified : Bool} {start final : Process}

theorem invariant_at_rest (rest : start.AtRest) (file : start.file = .json original) :
    ReloadInvariant saved original migrated start.cache start where
  cache := by
    by_cases empty : start.cache = []
    · exact .inl empty
    · exact .inr (.inr (.inr ⟨rfl, empty⟩))
  holder := by simp [rest.lock]
  holds := by simp [rest.lock]
  outside := by
    intro call
    rw [rest.loads call]
    trivial
  file := by simp [Process.FileOk, rest.save, file]
  settled := by simp [Process.CacheOk, rest.save]

theorem reload_run (stays : migrateConfig environ saved = .ok (saved, false))
    (moves : migrateConfig environ original = .ok (migrated, modified))
    {trace : List (Process × Mover)}
    (run : Execution (ReloadStep environ size saved) start trace final)
    (rest : start.AtRest) (file : start.file = .json original)
    (respects : ∀ visited ∈ trace, Respects environ saved visited.1 visited.2) :
    ReloadInvariant saved original migrated start.cache final :=
  (run.invariant (fun _ _ _ holds calm taken => reload_step stays moves holds calm taken)
    (invariant_at_rest rest file) respects).1

end Runs

section Afterwards

variable {environ : Environ} {size : Dict → Nat} {saved : Dict} {quiet process next : Process}

def LoadCall.Finished : LoadCall → Prop
  | .idle | .returned _ | .failed _ => True
  | _ => False

/-- All calls have finished. -/
structure Process.Quiet (process : Process) : Prop where
  loads : ∀ call, (process.loads call).Finished
  save : process.save = .done

/-- A load that has begun after the save has finished. -/
def Process.Current (saved : Dict) (process : Process) : LoadCall → Prop
  | .checking _ mtime => mtime = process.fileMtime
  | .returning => process.cache = saved
  | .returned config => config = saved
  | .failed _ => False
  | _ => True

def Process.CurrentHolder (saved : Dict) (process : Process) : Locked → Prop
  | .entered _ => True
  | .rechecking _ mtime | .reading mtime => mtime = process.fileMtime
  | .migrating config mtime | .publishing config mtime =>
      config = saved ∧ mtime = process.fileMtime
  | .recording _ mtime => process.cache = saved ∧ mtime = process.fileMtime
  | .returning => process.cache = saved
  | _ => False

/-- What stays true from the moment `quiet` on. -/
structure Settled (saved : Dict) (quiet process : Process) : Prop where
  save : process.save = .done
  file : process.file = .json saved
  cache : process.cache = saved ∨ process.cacheMtime < process.fileMtime
  loads : ∀ call, process.loads call = quiet.loads call ∨
    process.Current saved (process.loads call)
  holder : ∀ call state, process.lock = some (call, state) → process.CurrentHolder saved state

theorem settled_cache (settled : Settled saved quiet process) {force : Bool}
    (current : process.stale force process.fileMtime = false) : process.cache = saved := by
  obtain same | older := settled.cache
  · exact same
  · simp [Process.stale, older] at current

theorem settled_move (settled : Settled saved quiet process) {call : Nat} {state : LoadCall}
    (current : process.Current saved state) : Settled saved quiet (process.move call state) where
  save := settled.save
  file := settled.file
  cache := settled.cache
  loads := by
    intro other
    by_cases same : other = call
    · subst same
      have moved : (process.move other state).loads other = state := Function.update_self ..
      rw [moved]
      refine .inr ?_
      cases state <;> exact current
    · have kept : (process.move call state).loads other = process.loads other :=
        Function.update_of_ne same ..
      rw [kept]
      obtain before | now := settled.loads other
      · exact .inl before
      · refine .inr ?_
        cases phase : process.loads other <;> rw [phase] at now <;> exact now
  holder := by
    intro holder locked held
    have now := settled.holder holder locked held
    cases locked <;> exact now

theorem settled_advance (settled : Settled saved quiet process) {call : Nat} {state : Locked}
    (lock : next.lock = some (call, state) ∨ next.lock = none) (loads : next.loads = process.loads)
    (save : next.save = .done)
    (file : next.file = process.file) (mtime : next.fileMtime = process.fileMtime)
    (cache : next.cache = saved ∨
      next.cache = process.cache ∧ next.cacheMtime = process.cacheMtime)
    (current : next.CurrentHolder saved state) : Settled saved quiet next where
  save := save
  file := file.trans settled.file
  cache := by
    obtain published | ⟨same, recorded⟩ := cache
    · exact .inl published
    · rw [same, recorded, mtime]
      exact settled.cache
  loads := by
    intro other
    rw [loads]
    obtain before | now := settled.loads other
    · exact .inl before
    · refine .inr ?_
      cases phase : process.loads other with
      | checking force read =>
          rw [phase] at now
          exact now.trans mtime.symm
      | returning =>
          rw [phase] at now
          obtain published | ⟨same, -⟩ := cache
          · exact published
          · exact same.trans now
      | returned config =>
          rw [phase] at now
          exact now
      | failed exc =>
          rw [phase] at now
          exact now
      | idle | waiting | inside => trivial
  holder := by
    intro holder locked held
    obtain here | free := lock
    · obtain ⟨-, rfl⟩ := Prod.mk.inj (Option.some.inj (here.symm.trans held))
      exact current
    · rw [free] at held
      cases held

/-- A load that begins after the save returns what was saved. -/
theorem settled_step (stays : migrateConfig environ saved = .ok (saved, false))
    (finished : ∀ call, (quiet.loads call).Finished) {mover : Mover}
    (settled : Settled saved quiet process)
    (step : ReloadStep environ size saved process mover next) : Settled saved quiet next := by
  have now : ∀ call state, process.loads call = state → ¬ state.Finished →
      process.Current saved state := by
    intro call state here open_
    obtain before | current := settled.loads call
    · rw [← here, before] at open_
      exact absurd (finished call) open_
    · rwa [here] at current
  cases step with
  | start force idle => exact settled_move settled rfl
  | fresh checking current =>
      have read := now _ _ checking id
      rw [show _ = process.fileMtime from read] at current
      exact settled_move settled (settled_cache settled current)
  | outdated => exact settled_move settled trivial
  | answer returning =>
      have published := now _ _ returning id
      exact settled_move settled published
  | @acquire call force waiting free =>
      have moved : Settled saved quiet (process.move call .inside) := settled_move settled trivial
      exact settled_advance moved (.inl rfl) rfl moved.save rfl rfl (.inr ⟨rfl, rfl⟩) trivial
  | stat held =>
      exact settled_advance settled (.inl rfl) rfl settled.save rfl rfl (.inr ⟨rfl, rfl⟩) rfl
  | current held current =>
      have read := settled.holder _ _ held
      rw [show _ = process.fileMtime from read] at current
      have published := settled_cache settled current
      exact settled_advance settled (.inl rfl) rfl settled.save rfl rfl (.inr ⟨rfl, rfl⟩) published
  | reload held =>
      have read := settled.holder _ _ held
      exact settled_advance settled (.inl rfl) rfl settled.save rfl rfl (.inr ⟨rfl, rfl⟩) read
  | read held found =>
      have read := settled.holder _ _ held
      rw [settled.file] at found
      obtain rfl := Except.ok.inj found
      exact settled_advance settled (.inl rfl) rfl settled.save rfl rfl (.inr ⟨rfl, rfl⟩) ⟨rfl, read⟩
  | readFails held fails =>
      rw [settled.file] at fails
      cases fails
  | migrate held result =>
      obtain ⟨rfl, -⟩ := settled.holder _ _ held
      cases stays.symm.trans result
  | migrateNothing held result =>
      obtain ⟨rfl, read⟩ := settled.holder _ _ held
      have same := stays.symm.trans result
      simp only [Except.ok.injEq, Prod.mk.injEq, and_true] at same
      subst same
      exact settled_advance settled (.inl rfl) rfl settled.save rfl rfl (.inr ⟨rfl, rfl⟩) ⟨rfl, read⟩
  | migrateFails held fails =>
      obtain ⟨rfl, -⟩ := settled.holder _ _ held
      cases stays.symm.trans fails
  | truncate held => exact absurd (settled.holder _ _ held) id
  | dump held => exact absurd (settled.holder _ _ held) id
  | cache held => exact absurd (settled.holder _ _ held) id
  | time held => exact absurd (settled.holder _ _ held) id
  | publish held =>
      obtain ⟨rfl, read⟩ := settled.holder _ _ held
      exact settled_advance settled (.inl rfl) rfl settled.save rfl rfl (.inl rfl) ⟨rfl, read⟩
  | record held =>
      obtain ⟨published, read⟩ := settled.holder _ _ held
      exact settled_advance settled (.inl rfl) rfl settled.save rfl rfl (.inl published) published
  | @answerLocked call held =>
      have published := settled.holder _ _ held
      have moved : Settled saved quiet (process.move call (.returned process.cache)) :=
        settled_move settled published
      exact @settled_advance saved quiet _ _ moved call (.entered false) (.inr rfl) rfl moved.save
        rfl rfl (.inr ⟨rfl, rfl⟩) trivial
  | saveTruncate idle => cases settled.save.symm.trans idle
  | saveDump dumping => cases settled.save.symm.trans dumping
  | saveCache caching => cases settled.save.symm.trans caching
  | saveTime timing => cases settled.save.symm.trans timing

theorem settled_run (stays : migrateConfig environ saved = .ok (saved, false))
    (finished : ∀ call, (quiet.loads call).Finished) {trace : List (Process × Mover)}
    (run : Execution (ReloadStep environ size saved) process trace next)
    (settled : Settled saved quiet process) : Settled saved quiet next :=
  (run.always (fun _ _ _ settled taken => settled_step stays finished settled taken) settled).1

@[simp] theorem Process.stale_advance (call : Nat) (state : Locked) (force : Bool) (mtime : Nat) :
    (process.advance call state).stale force mtime = process.stale force mtime := rfl

@[simp] theorem Process.stale_move (call : Nat) (state : LoadCall) (force : Bool) (mtime : Nat) :
    (process.move call state).stale force mtime = process.stale force mtime := rfl

@[simp] theorem Process.file_advance (call : Nat) (state : Locked) :
    (process.advance call state).file = process.file := rfl

theorem Process.loads_move (call : Nat) (state : LoadCall) :
    (process.move call state).loads call = state :=
  Function.update_self ..

@[simp] theorem Process.fileMtime_advance (call : Nat) (state : Locked) :
    (process.advance call state).fileMtime = process.fileMtime := rfl

@[simp] theorem Process.fileMtime_move (call : Nat) (state : LoadCall) :
    (process.move call state).fileMtime = process.fileMtime := rfl

theorem reload_alone (stays : migrateConfig environ saved = .ok (saved, false)) {call : Nat}
    (held : process.lock = some (call, .entered false)) (file : process.file = .json saved)
    (old : process.stale false process.fileMtime = true) :
    ∃ trace final, Execution (ReloadStep environ size saved) process trace final ∧
      final.loads call = .returned saved := by
  have looked : Execution (ReloadStep environ size saved) process _ _ := .snoc .nil (.stat held)
  have reading := looked.snoc (.reload rfl (by simpa using old))
  have found : process.file.load = .ok saved := congrArg FileContent.load file
  have read := reading.snoc (.read rfl (by simpa using found))
  have migrated := read.snoc (.migrateNothing rfl stays)
  have published := migrated.snoc (.publish rfl)
  have recorded := published.snoc (.record rfl)
  exact ⟨_, _, recorded.snoc (.answerLocked rfl), Process.loads_move call _⟩

theorem settled_returns (stays : migrateConfig environ saved = .ok (saved, false))
    (settled : Settled saved quiet process) (free : process.lock = none) {call : Nat}
    (idle : process.loads call = .idle) :
    ∃ trace final, Execution (ReloadStep environ size saved) process trace final ∧
      final.loads call = .returned saved := by
  have begun : Execution (ReloadStep environ size saved) process _ _ :=
    .snoc .nil (.start false idle)
  have checking := process.loads_move call (.checking false process.fileMtime)
  cases old : process.stale false process.fileMtime with
  | false =>
      have cached := settled_cache settled old
      have checked := begun.snoc (.fresh checking (by simpa using old))
      have answered := checked.snoc (.answer (Process.loads_move call _))
      refine ⟨_, _, answered, (Process.loads_move call _).trans ?_⟩
      exact congrArg LoadCall.returned cached
  | true =>
      have waiting := begun.snoc (.outdated checking (by simpa using old))
      have entered := waiting.snoc (.acquire (Process.loads_move call _) free)
      let inside := (((process.move call (.checking false process.fileMtime)).move call
        (.waiting false)).move call .inside).advance call (.entered false)
      have stale : inside.stale false inside.fileMtime = true := by simpa [inside] using old
      obtain ⟨trace, final, rest, returned⟩ :=
        @reload_alone environ size saved inside stays call rfl settled.file stale
      exact ⟨_, final, entered.append rest, returned⟩

end Afterwards

section SaveStands

variable {environ : Environ} {size : Dict → Nat} {saved : Dict} {start final : Process}

/-- What a load before the save could return: the cached config, or what the file
holds once it is migrated. -/
def Earlier (environ : Environ) (start : Process) (config : Dict) : Prop :=
  config = start.cache ∧ config ≠ [] ∨
    ∃ original modified, start.file.load = .ok original ∧
      migrateConfig environ original = .ok (config, modified)

/-- The file of `start` can be loaded. -/
def Process.Loadable (environ : Environ) (start : Process) : Prop :=
  ∃ original migrated modified, start.file.load = .ok original ∧
    migrateConfig environ original = .ok (migrated, modified)

/-- No load has failed or returned anything but an earlier config or the saved one;
and when all calls have finished, the file holds the saved config and a load that
begins then returns it. -/
structure SaveStands (environ : Environ) (size : Dict → Nat) (saved : Dict)
    (start final : Process) : Prop where
  succeeds : ∀ call exc, final.loads call ≠ .failed exc
  returns : ∀ call config, final.loads call = .returned config →
    config = saved ∨ Earlier environ start config
  file : final.Quiet → final.file = .json saved
  next : final.Quiet → ∀ call, final.loads call = .idle →
    ∃ trace last, Execution (ReloadStep environ size saved) final trace last ∧
      last.loads call = .returned saved
  only : final.Quiet → ∀ call, final.loads call = .idle → ∀ trace last,
    Execution (ReloadStep environ size saved) final trace last →
      (∀ exc, last.loads call ≠ .failed exc) ∧
        ∀ config, last.loads call = .returned config → config = saved

theorem json_of_load {file : FileContent} {config : Dict} (loaded : file.load = .ok config) :
    file = .json config := by
  cases file with
  | json other =>
      obtain rfl := Except.ok.inj loaded
      rfl
  | empty | unreadable => cases loaded

theorem settled_of_quiet {original migrated cached : Dict}
    (holds : ReloadInvariant saved original migrated cached final) (quiet : final.Quiet) :
    final.lock = none ∧ Settled saved final final := by
  have free : final.lock = none := by
    cases held : final.lock with
    | none => rfl
    | some holder =>
        have finished := quiet.loads holder.1
        rw [holds.holder holder.1 holder.2 held] at finished
        exact absurd finished id
  refine ⟨free, quiet.save, ?_, ?_, fun _ => .inl rfl, by simp [free]⟩
  · have file := holds.file
    simpa [Process.FileOk, quiet.save] using file
  · have settled := holds.settled
    simpa [Process.CacheOk, quiet.save, free] using settled

/-- A save that no reload crosses is neither undone nor torn, whatever else runs. -/
theorem save_stands (complete : @Complete environ saved) (rest : start.AtRest)
    (loadable : start.Loadable environ) {trace : List (Process × Mover)}
    (run : Execution (ReloadStep environ size saved) start trace final)
    (respects : ∀ visited ∈ trace, Respects environ saved visited.1 visited.2) :
    SaveStands environ size saved start final := by
  obtain ⟨original, migrated, modified, loaded, moves⟩ := loadable
  have stays := migrateConfig_complete complete
  have holds := reload_run stays moves run rest (json_of_load loaded) respects
  refine ⟨?_, ?_, ?_, ?_, ?_⟩
  · intro call exc failed
    have outside := holds.outside call
    rw [failed] at outside
    exact outside
  · intro call config returned
    have outside := holds.outside call
    rw [returned] at outside
    obtain same | rfl | earlier := outside
    · exact .inl same
    · exact .inr (.inr ⟨original, modified, loaded, moves⟩)
    · exact .inr (.inl earlier)
  · intro quiet
    exact (settled_of_quiet holds quiet).2.file
  · intro quiet call idle
    obtain ⟨free, settled⟩ := settled_of_quiet holds quiet
    exact settled_returns stays settled free idle
  · intro quiet call idle later last continued
    have settled := settled_run stays quiet.loads continued (settled_of_quiet holds quiet).2
    have current := settled.loads call
    rw [idle] at current
    refine ⟨?_, ?_⟩
    · intro exc failed
      rw [failed] at current
      obtain never | never := current
      · cases never
      · exact never
    · intro config returned
      rw [returned] at current
      obtain never | same := current
      · cases never
      · exact same

end SaveStands

section Crossing

/-- The fields that a migration adds to `{}`. -/
def migratedDefaults : Dict := migratedOf bareEnviron []

theorem migratedDefaults_complete : @Complete bareEnviron migratedDefaults := by
  obtain ⟨migrated, modified, result⟩ := migrate_bare []
  exact migratedOf_complete result

/-- Nothing has run yet, and the file holds `config`. -/
def unstarted (config : Dict) : Process where
  file := .json config
  fileMtime := 0
  cache := []
  cacheMtime := 0
  lock := none
  loads := fun _ => .idle
  save := .idle

theorem unstarted_atRest (config : Dict) : (unstarted config).AtRest :=
  ⟨rfl, fun _ => rfl, rfl⟩

theorem unstarted_loadable (config : Dict) : (unstarted config).Loadable bareEnviron := by
  obtain ⟨migrated, modified, result⟩ := migrate_bare config
  exact ⟨config, migrated, modified, rfl, result⟩

/-- A load begins before the save and answers after it. -/
theorem save_stands_overlapping :
    ∃ trace final,
      Execution (ReloadStep bareEnviron List.length migratedDefaults) (unstarted []) trace final ∧
        final.Quiet ∧
        SaveStands bareEnviron List.length migratedDefaults (unstarted []) final := by
  have begun : Execution (ReloadStep bareEnviron List.length migratedDefaults) (unstarted []) _ _ :=
    .snoc .nil (@ReloadStep.start _ _ _ _ 0 false rfl)
  have truncated := begun.snoc (@ReloadStep.saveTruncate _ _ _ _ 1 rfl Nat.zero_lt_one)
  have dumped := truncated.snoc (@ReloadStep.saveDump _ _ _ _ 2 rfl Nat.one_lt_two)
  have cached := dumped.snoc (.saveCache rfl)
  have saved := cached.snoc (.saveTime rfl)
  have current : Process.stale { unstarted [] with cache := migratedDefaults, cacheMtime := 2 }
      false 0 = false := by
    have full := complete_nonempty migratedDefaults_complete
    simpa [Process.stale] using full
  have fresh := saved.snoc (@ReloadStep.fresh _ _ _ _ 0 false 0 rfl current)
  have answered := fresh.snoc (@ReloadStep.answer _ _ _ _ 0 (Process.loads_move 0 _))
  refine ⟨_, _, answered, ⟨?_, rfl⟩, save_stands migratedDefaults_complete
    (unstarted_atRest []) (unstarted_loadable []) answered ?_⟩
  · intro call
    by_cases same : call = 0
    · subst same
      trivial
    · simp [Process.move, Function.update_of_ne same, unstarted, LoadCall.Finished]
  · simp [Respects, Process.move, unstarted]

/-- A reload reads the file that the save has just truncated. -/
theorem torn_read :
    ¬ ∀ (environ : Environ) (size : Dict → Nat) (saved : Dict) (start final : Process)
      (trace : List (Process × Mover)), @Complete environ saved → start.AtRest →
      start.Loadable environ → Execution (ReloadStep environ size saved) start trace final →
      SaveStands environ size saved start final := by
  intro claimed
  have begun : Execution (ReloadStep bareEnviron List.length migratedDefaults) (unstarted []) _ _ :=
    .snoc .nil (@ReloadStep.start _ _ _ _ 0 false rfl)
  have waiting := begun.snoc (.outdated (Process.loads_move 0 _) rfl)
  have entered := waiting.snoc (.acquire (Process.loads_move 0 _) rfl)
  have looked := entered.snoc (.stat rfl)
  have reading := looked.snoc (.reload rfl rfl)
  have truncated := reading.snoc (@ReloadStep.saveTruncate _ _ _ _ 1 rfl Nat.zero_lt_one)
  have torn := truncated.snoc (.readFails rfl rfl)
  have stands := claimed _ _ _ _ _ _ migratedDefaults_complete (unstarted_atRest [])
    (unstarted_loadable []) torn
  exact stands.succeeds 0 _ rfl

end Crossing

end S3Manager.Config
