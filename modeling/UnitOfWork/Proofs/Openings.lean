import UnitOfWork.Proofs.Custody

/-!
# Opening a pool

The connections of a pool are opened one after another, as many as the settings
say. How an attempt turns out is up to the driver, and may depend on what was
called before, as may whether a connection can be closed. The first attempt
that fails is the last one: the connections that have been opened by then are
closed in turn, once each and whatever comes of it, and the failure of the
attempt is what is reported. Otherwise all connections are in the pool, idle
and open.

## Main results

* `Backend.openMore_cases`: opening more connections;
* `Database.connect_leaks_nothing`: opening a pool, and a database.
-/

namespace UnitOfWork

variable {σ : Type} [Driver σ]

namespace Backend

/-! ## Attempts -/

/-- The calls that open the first connections. -/
def connects (count : Nat) : List (ConnId × Call) :=
  (List.range count).map fun conn => (conn, .connect)

/-- The calls that close them. -/
def closes (count : Nat) : List (ConnId × Call) :=
  (List.range count).map fun conn => (conn, .close)

/-- What comes of the attempt to open a connection after those before it have
been opened. -/
def attempt (env : Env σ) (conn : ConnId) : Except Error Unit :=
  (Driver.call conn .connect (env.calledAll (connects conn)).driver).1

omit [Driver σ] in
theorem connects_succ (count : Nat) :
    connects (count + 1) = connects count ++ [(count, .connect)] := by
  rw [connects, List.range_succ, List.map_append]
  rfl

theorem calledAll_connects_succ (env : Env σ) (count : Nat) :
    env.calledAll (connects (count + 1)) =
      (env.calledAll (connects count)).called count .connect := by
  rw [connects_succ, Env.calledAll_append]
  rfl

/-! ## Opening connections one after another -/

/-- More connections are opened until there are enough of them, or up to the
first attempt that fails; then all that have been opened are closed. -/
theorem openMore_cases (env : Env σ) (opened count : Nat) :
    match (openMore (List.range opened) count).run
      (env.calledAll (connects opened)) with
    | (.ok conns, after) =>
      conns = List.range (opened + count) ∧
        (∀ conn, opened ≤ conn → conn < opened + count →
          attempt env conn = .ok ()) ∧
        after = env.calledAll (connects (opened + count))
    | (.error e, after) =>
      ∃ last, opened ≤ last ∧ last < opened + count ∧
        (∀ conn, opened ≤ conn → conn < last → attempt env conn = .ok ()) ∧
        attempt env last = .error e ∧
        after = env.calledAll (connects (last + 1) ++ closes last) := by
  induction count generalizing opened with
  | zero =>
      refine ⟨rfl, fun conn hFrom hTo => ?_, rfl⟩
      omega
  | succ count ih =>
      have hAttempt : attempt env opened = (Driver.call opened .connect
        (env.calledAll (connects opened)).driver).1 := rfl
      rw [openMore, List.length_range, Step.bind_run, Step.attempt_run,
        Env.call_run]
      simp only
      rw [← hAttempt, ← calledAll_connects_succ]
      cases hOpened : attempt env opened with
      | error e =>
          obtain ⟨failure, hClosed⟩ := closeAll_run (List.range opened)
            (env.calledAll (connects (opened + 1)))
          simp only
          rw [Step.bind_run, hClosed]
          refine ⟨opened, Nat.le_refl _, by omega, ?_, hOpened, ?_⟩
          · intro conn hFrom hTo
            omega
          · rw [Env.calledAll_append]
            rfl
      | ok _ =>
          have hMore := ih (opened + 1)
          have hFrom : ∀ {limit : Nat},
              (∀ conn, opened + 1 ≤ conn → conn < limit →
                attempt env conn = .ok ()) →
              ∀ conn, opened ≤ conn → conn < limit →
                attempt env conn = .ok () := by
            intro limit hLater conn hLe hLt
            rcases Nat.eq_or_lt_of_le hLe with rfl | hLess
            · exact hOpened
            · exact hLater conn hLess hLt
          have hSum : opened + 1 + count = opened + (count + 1) := by omega
          simp only
          rw [← List.range_succ]
          rw [hSum] at hMore
          generalize (openMore (List.range (opened + 1)) count).run
            (env.calledAll (connects (opened + 1))) = result at hMore ⊢
          obtain ⟨e | conns, after⟩ := result
          · obtain ⟨last, hLe, hLt, hBefore, hFailed, hAfter⟩ := hMore
            exact ⟨last, by omega, hLt, hFrom hBefore, hFailed, hAfter⟩
          · obtain ⟨hConns, hAll, hAfter⟩ := hMore
            exact ⟨hConns, hFrom hAll, hAfter⟩

/-! ## Opening a pool -/

/-- How a pool of so many connections is opened: what comes of it, and what it
leaves. -/
inductive Opened (size : Nat) (env : Env σ) : Except Error Pool → Env σ → Prop
  /-- Nothing is opened for a pool without connections. -/
  | empty (hSize : size = 0) :
    Opened size env (.error (.settings .poolSizeZero)) env
  /-- An attempt is the first one to fail, and the last one. -/
  | failed {last : ConnId} {e : Error} (hLast : last < size)
      (hBefore : ∀ conn < last, attempt env conn = .ok ())
      (hFailed : attempt env last = .error e) :
    Opened size env (.error e)
      (env.calledAll (connects (last + 1) ++ closes last))
  /-- All connections have been opened. -/
  | opened (hSize : 0 < size)
      (hAll : ∀ conn < size, attempt env conn = .ok ()) :
    Opened size env (.ok { size := size, idle := (List.range size).reverse })
      (env.calledAll (connects size))

/-- Every pool is opened in one of these ways. -/
theorem openPool_opened (settings : Settings) (env : Env σ) :
    Opened settings.poolSize env ((openPool settings).run env).1
      ((openPool settings).run env).2 := by
  by_cases hSize : settings.poolSize = 0
  · rw [openPool, if_pos hSize]
    exact .empty hSize
  · have hMore := openMore_cases env 0 settings.poolSize
    have hNone : (openMore (List.range 0) settings.poolSize).run
        (env.calledAll (connects 0)) =
          (openMore [] settings.poolSize).run env := rfl
    rw [openPool, if_neg hSize, Step.bind_run]
    rw [hNone, Nat.zero_add] at hMore
    rcases hRun : (openMore [] settings.poolSize).run env with
      ⟨e | conns, after⟩
    · rw [hRun] at hMore
      obtain ⟨last, _, hLast, hBefore, hFailed, hAfter⟩ := hMore
      rw [hAfter]
      exact .failed hLast (fun conn => hBefore conn (Nat.zero_le conn)) hFailed
    · rw [hRun] at hMore
      obtain ⟨hConns, hAll, hAfter⟩ := hMore
      have hSome : (List.range settings.poolSize).isEmpty = false := by
        simpa using hSize
      rw [hConns, hAfter]
      simp only [Pool.ofConnections, hSome, List.length_range]
      exact .opened (Nat.pos_of_ne_zero hSize)
        fun conn => hAll conn (Nat.zero_le conn)

end Backend

/-- Opening a pool leaks nothing, whatever the driver does: without connections
to open nothing is called; the first attempt that fails is the last one, its
error is reported, and what was opened before is closed, each connection once
and whether or not that fails; and otherwise all connections are idle and open.
A database opens the pool of its settings in this way if they are valid, and
otherwise calls nothing. -/
theorem Database.connect_leaks_nothing (schema : Schema) (settings : Settings)
    (env : Env σ) :
    Backend.Opened settings.poolSize env
        ((Backend.openPool settings).run env).1
        ((Backend.openPool settings).run env).2 ∧
      (∀ e, settings.validate = .error e →
        connect schema settings env = (.error e, env)) ∧
      (settings.validate = .ok () →
        (connect schema settings env).1.map (fun db => db.backend.pool) =
            ((Backend.openPool settings).run env).1 ∧
          (connect schema settings env).2 =
            ((Backend.openPool settings).run env).2) := by
  refine ⟨Backend.openPool_opened settings env, fun e hInvalid => ?_,
    fun hValid => ?_⟩
  · simp only [connect, hInvalid]
  · simp only [connect, hValid]
    rcases (Backend.openPool settings).run env with ⟨e | pool, after⟩
    · exact ⟨rfl, rfl⟩
    · exact ⟨rfl, rfl⟩

/-! ## Four connections -/

namespace Notes

/-- A store to which the third connection cannot be opened; the first one to be
closed is not closed properly. -/
def crowded : Env Store where
  driver := { store [] with
    faults := [⟨"CONNECT", 2, 1, .failure "too many connections"⟩,
      ⟨"CLOSE", 0, 1, .failure "broken pipe"⟩] }

/-- Settings for four connections. -/
def berths : Settings := (Settings.ofUrl "notes").withPoolSize 4

end Notes

/-- Of four connections the third cannot be opened: the first two are closed,
the fourth is not tried, and the failure to open the third is reported. Of none
nothing is called. -/
theorem Database.connect_leaks_nothing_of_crowded :
    Backend.Opened 4 Notes.crowded
      ((Backend.openPool Notes.berths).run Notes.crowded).1
      ((Backend.openPool Notes.berths).run Notes.crowded).2 ∧
    (connect Notes.schema Notes.berths Notes.crowded).1.map (fun _ => ()) =
      .error (.connection "too many connections") ∧
    ((connect Notes.schema Notes.berths Notes.crowded).2 =
        ((Backend.openPool Notes.berths).run Notes.crowded).2 ∧
      (connect Notes.schema Notes.berths Notes.crowded).2.trace =
        [(0, .connect), (1, .connect), (2, .connect), (0, .close),
          (1, .close)]) ∧
    connect Notes.schema (Notes.berths.withPoolSize 0) Notes.crowded =
      (.error (.settings .poolSizeZero), Notes.crowded) := by
  obtain ⟨hOpened, _, hValid⟩ :=
    connect_leaks_nothing Notes.schema Notes.berths Notes.crowded
  obtain ⟨_, hInvalid, _⟩ := connect_leaks_nothing Notes.schema
    (Notes.berths.withPoolSize 0) Notes.crowded
  exact ⟨hOpened, rfl, ⟨(hValid rfl).2, rfl⟩, hInvalid _ rfl⟩

end UnitOfWork
