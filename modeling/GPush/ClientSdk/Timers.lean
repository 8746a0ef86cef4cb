import GPush.ClientSdk.CliConn

/-!
# How long the client's loop waits

Before `select`, the loop processes the timers of every connection and takes the least time
that is left until one of them.  What it starts from is meant to be greater than any time.
-/

namespace GPush.ClientSdk

open GPush.ConnectServer

/-- `struct timeval`. -/
structure Timeval where
  sec : Int
  usec : Int
  deriving DecidableEq, Repr

/-- The value that a 64-bit signed field takes. -/
def toInt64 (n : Int) : Int := n.bmod (2 ^ 64)

/-- A time in microseconds. -/
def Timeval.ofMicros (t : Int) : Timeval := ⟨t / 1000000, t % 1000000⟩

/-- The microseconds of a time. -/
def Timeval.micros (t : Timeval) : Int := t.sec * 1000000 + t.usec

/-- `tv_cmp`. -/
def tvCmp (t1 t2 : Timeval) : Int :=
  if t1.sec < t2.sec then -1
  else if t2.sec < t1.sec then 1
  else if t1.usec < t2.usec then -1
  else if t2.usec < t1.usec then 1
  else 0

/-- `tv_diff`. -/
def tvDiff (t1 t2 : Timeval) : Timeval :=
  let sec := toInt64 (t1.sec - t2.sec)
  if t1.usec < t2.usec then
    ⟨toInt64 (sec - 1), toInt64 (t1.usec + 1000000 - t2.usec)⟩
  else
    ⟨sec, toInt64 (t1.usec - t2.usec)⟩

/-- `c_tvmax`, whose fields are `~0UL`. -/
def tvMax : Timeval := ⟨toInt64 (2 ^ 64 - 1), toInt64 (2 ^ 64 - 1)⟩

/-- What `CliConn::processTimers` makes of `tv`: the first timer that is not due counts. -/
def CliConn.nextDeadline (c : CliConn) (now : Int) (tv : Timeval) : Timeval :=
  match c.timers.dropWhile fun timer => timer.1 ≤ now with
  | [] => tv
  | timer :: _ =>
      let tvtemp := tvDiff (.ofMicros timer.1) (.ofMicros now)
      if 0 < tvCmp tv tvtemp then tvtemp else tv

/-- `EventLoop::processTimers` at the time `now`.  Each connection comes with what its
timeout callbacks find; one without a socket is deleted. -/
def processTimers (now : Int) : List (CliConn × (Nat → Net)) → Timeval → List CliConn × Timeval
  | [], tv => ([], tv)
  | (c, nets) :: rest, tv =>
      if c.fd = false then
        processTimers now rest tv
      else
        let later := processTimers now rest (c.nextDeadline now tv)
        ((c.processTimers now nets).con :: later.1, later.2)

/-- What `run` calls `select` with, and the connections at that time; `none` is the null
pointer. -/
structure Selecting where
  conns : List CliConn
  ptv : Option Timeval
  deriving Repr

/-- A round of `EventLoop::run` up to `select`. -/
def selecting (now : Int) (conns : List (CliConn × (Nat → Net))) : Selecting :=
  let processed := processTimers now conns tvMax
  ⟨processed.1, if tvCmp tvMax processed.2 = 0 then none else some processed.2⟩

/-- The timeout is a length of time, and no longer than what is left until the pending timers
of the open connections. -/
def Selecting.BoundsWait (s : Selecting) (now : Int) : Prop :=
  ∀ c ∈ s.conns, c.fd = true → ∀ timer ∈ c.timers,
    ∃ tv, s.ptv = some tv ∧ 0 ≤ tv.sec ∧ 0 ≤ tv.usec ∧ tv.micros ≤ max 0 (timer.1 - now)

theorem tvMax_eq : tvMax = ⟨-1, -1⟩ := by decide

/-- `tv_cmp` compares the seconds first. -/
theorem tvCmp_nonpos_iff (t1 t2 : Timeval) :
    tvCmp t1 t2 ≤ 0 ↔ t1.sec < t2.sec ∨ t1.sec = t2.sec ∧ t1.usec ≤ t2.usec := by
  rw [tvCmp]
  split_ifs <;> omega

/-- A time that is not after -1 s -1 µs is no length of time. -/
theorem negative_of_tvCmp_tvMax {tv : Timeval} (before : tvCmp tv tvMax ≤ 0) :
    tv.sec < 0 ∨ tv.usec < 0 := by
  rw [tvMax_eq, tvCmp_nonpos_iff] at before
  dsimp only at before
  omega

theorem tvCmp_of_less {t1 t2 t3 : Timeval} (less : 0 < tvCmp t1 t2) (before : tvCmp t1 t3 ≤ 0) :
    tvCmp t2 t3 ≤ 0 := by
  have notBefore := (tvCmp_nonpos_iff t1 t2).not.mp (Int.not_le.mpr less)
  rw [tvCmp_nonpos_iff] at before ⊢
  omega

/-- A connection takes only a time that is less. -/
theorem tvCmp_nextDeadline (c : CliConn) (now : Int) {tv limit : Timeval}
    (before : tvCmp tv limit ≤ 0) : tvCmp (c.nextDeadline now tv) limit ≤ 0 := by
  rw [CliConn.nextDeadline]
  cases c.timers.dropWhile fun timer => timer.1 ≤ now with
  | nil => exact before
  | cons timer timers =>
      dsimp only
      split_ifs with less
      · exact tvCmp_of_less less before
      · exact before

theorem tvCmp_processTimers (now : Int) {conns : List (CliConn × (Nat → Net))}
    {tv limit : Timeval} (before : tvCmp tv limit ≤ 0) :
    tvCmp (processTimers now conns tv).2 limit ≤ 0 := by
  induction conns generalizing tv with
  | nil => exact before
  | cons conn conns ih =>
      rw [processTimers]
      split_ifs with closed
      · exact ih before
      · exact ih (tvCmp_nextDeadline conn.1 now before)

/-- What the fold starts from is less than any length of time, and it never takes a greater
one. -/
theorem negative_of_ptv {now : Int} {conns : List (CliConn × (Nat → Net))} {tv : Timeval}
    (passed : (selecting now conns).ptv = some tv) : tv.sec < 0 ∨ tv.usec < 0 := by
  rw [selecting] at passed
  split_ifs at passed
  rw [← Option.some.inj passed]
  exact negative_of_tvCmp_tvMax (tvCmp_processTimers now (by decide))

theorem toInt64_of_mem {n : Int} (lower : -2 ^ 63 ≤ n) (upper : n < 2 ^ 63) : toInt64 n = n :=
  Int.bmod_eq_of_le (by omega) (by omega)

theorem sec_tvDiff_nonneg {t1 t2 : Timeval}
    (later : t2.sec < t1.sec ∨ t2.sec = t1.sec ∧ t2.usec ≤ t1.usec)
    (fits : t1.sec - t2.sec < 2 ^ 63) : 0 ≤ (tvDiff t1 t2).sec := by
  have diff : toInt64 (t1.sec - t2.sec) = t1.sec - t2.sec :=
    toInt64_of_mem (by omega) fits
  simp only [tvDiff, diff]
  split_ifs with borrow
  · have borrowed : toInt64 (t1.sec - t2.sec - 1) = t1.sec - t2.sec - 1 :=
      toInt64_of_mem (by omega) (by omega)
    simp only [borrowed]
    omega
  · simp only
    omega

/-- While the times stay in range, what is left until a timer is not less than what the fold
starts from. -/
theorem nextDeadline_tvMax {c : CliConn} {now : Int} (start : 0 ≤ now)
    (inRange : ∀ timer ∈ c.timers, timer.1 < 2 ^ 63 * 1000000) :
    c.nextDeadline now tvMax = tvMax := by
  rw [CliConn.nextDeadline]
  cases pending : c.timers.dropWhile fun timer => timer.1 ≤ now with
  | nil => rfl
  | cons timer timers =>
      have member : timer ∈ c.timers := by
        apply (List.dropWhile_sublist _).subset
        rw [pending]
        exact List.mem_cons_self
      have later : ¬timer.1 ≤ now := by
        have kept := List.head?_dropWhile_not (fun timer : Int × TimerOp => timer.1 ≤ now) c.timers
        rw [pending] at kept
        simpa using kept
      have upper := inRange timer member
      have sec : 0 ≤ (tvDiff (.ofMicros timer.1) (.ofMicros now)).sec := by
        apply sec_tvDiff_nonneg
        · simp only [Timeval.ofMicros]
          omega
        · simp only [Timeval.ofMicros]
          omega
      have notLess : tvCmp tvMax (tvDiff (.ofMicros timer.1) (.ofMicros now)) ≤ 0 := by
        rw [tvMax_eq, tvCmp_nonpos_iff]
        exact Or.inl (Int.lt_of_lt_of_le (by decide) sec)
      exact if_neg (Int.not_lt.mpr notLess)

/-- So the timeout is null whatever timers there are. -/
theorem ptv_eq_none {now : Int} {conns : List (CliConn × (Nat → Net))} (start : 0 ≤ now)
    (inRange : ∀ conn ∈ conns, ∀ timer ∈ conn.1.timers, timer.1 < 2 ^ 63 * 1000000) :
    (selecting now conns).ptv = none := by
  have kept : (processTimers now conns tvMax).2 = tvMax := by
    induction conns with
    | nil => rfl
    | cons conn conns ih =>
        rw [List.forall_mem_cons] at inRange
        rw [processTimers]
        split_ifs with closed
        · exact ih inRange.2
        · rw [nextDeadline_tvMax start inRange.1]
          exact ih inRange.2
  rw [selecting, kept, if_pos (by decide)]

/-- The wait is bounded as it should be exactly when no open connection has a timer left. -/
theorem boundsWait_iff_noTimers (now : Int) (conns : List (CliConn × (Nat → Net))) :
    (selecting now conns).BoundsWait now ↔
      ∀ c ∈ (selecting now conns).conns, c.fd = true → c.timers = [] := by
  constructor
  · intro bounds c member opened
    apply List.eq_nil_iff_forall_not_mem.mpr
    intro timer pending
    rcases bounds c member opened timer pending with ⟨tv, passed, sec, usec, -⟩
    rcases negative_of_ptv passed with negative | negative
    · exact Int.not_lt.mpr sec negative
    · exact Int.not_lt.mpr usec negative
  · intro noTimers c member opened timer pending
    rw [noTimers c member opened] at pending
    cases pending

/-! ## The timers that are left -/

namespace CliConn

/-- The timeout callback closes the socket: of a login, or of a keep-alive when the server
has been silent for too long or the packet is not sent. -/
def Closes (c : CliConn) (net : Net) : TimerOp → Prop
  | .login => True
  | .keepalive => c.keepaliveLimit < net.ms - c.activeTime ∨ net.sent ≤ 0

/-- A callback of one of the timers, from the `n`th on, closes the socket. -/
def AnyCloses (c : CliConn) (nets : Nat → Net) (n : Nat) (timers : List (Int × TimerOp)) : Prop :=
  ∃ i timer, timers[i]? = some timer ∧ c.Closes (nets (n + i)) timer.2

/-- The timers that are due close the socket. -/
def ClosedByTimers (c : CliConn) (now : Int) (nets : Nat → Net) : Prop :=
  c.AnyCloses nets 0 (c.timers.takeWhile fun timer => timer.1 ≤ now)

variable {c : CliConn} {nets : Nat → Net} {n : Nat} {timers : List (Int × TimerOp)}

theorem anyCloses_cons (timer : Int × TimerOp) :
    c.AnyCloses nets n (timer :: timers) ↔
      c.Closes (nets n) timer.2 ∨ c.AnyCloses nets (n + 1) timers := by
  constructor
  · rintro ⟨_ | i, timer', found, closes⟩
    · rw [← Option.some.inj found] at closes
      exact Or.inl closes
    · refine Or.inr ⟨i, timer', found, ?_⟩
      rwa [Nat.add_right_comm, Nat.add_assoc]
  · rintro (closes | ⟨i, timer', found, closes⟩)
    · exact ⟨0, timer, rfl, closes⟩
    · refine ⟨i + 1, timer', found, ?_⟩
      rwa [Nat.add_right_comm, Nat.add_assoc] at closes

theorem fd_shut (c : CliConn) (net : Net) (status : LoginStatus) (code : Int) :
    (c.shut net status code).con.fd = false := by
  rw [shut, setStatus]
  split_ifs <;> rfl

/-- What a callback does with the socket and the timers. -/
theorem onTimeout_cases (opened : c.fd = true) (net : Net) (op : TimerOp) :
    c.Closes net op ∧ (c.onTimeout net op).con.fd = false ∨
      ¬c.Closes net op ∧ (c.onTimeout net op).con = c.addKeepaliveTimer net := by
  cases op with
  | login => exact Or.inl ⟨trivial, fd_shut c net .loginFail timeoutError⟩
  | keepalive =>
      rw [onTimeout, keepalive]
      split_ifs with late
      · exact Or.inl ⟨Or.inl late, fd_shut c net .disconnect timeoutError⟩
      · have sends : ¬(constructPacket keepaliveReq [] = [] ∨
            (c.addKeepaliveTimer net).fd = false) := by
          rintro (empty | closed)
          · exact absurd empty (by decide)
          · cases opened.symm.trans closed
        rw [sendPacket, send, if_neg sends]
        split_ifs with fails
        · exact Or.inl ⟨Or.inr fails, rfl⟩
        · exact Or.inr ⟨fun closes => closes.elim late fails, rfl⟩

theorem fd_onTimeout_of_closed (closed : c.fd = false) (net : Net) (op : TimerOp) :
    (c.onTimeout net op).con.fd = false := by
  cases op with
  | login => exact fd_shut c net .loginFail timeoutError
  | keepalive =>
      rw [onTimeout, keepalive]
      split_ifs
      · exact fd_shut c net .disconnect timeoutError
      · have noSocket : (c.addKeepaliveTimer net).fd = false := closed
        rw [sendPacket, send, if_pos (Or.inr noSocket)]
        exact noSocket

theorem fd_runTimers_of_closed (nets : Nat → Net) (n : Nat) (timers : List (Int × TimerOp))
    (closed : c.fd = false) : (runTimers nets n c timers).con.fd = false := by
  induction timers generalizing n c with
  | nil => exact closed
  | cons timer timers ih => exact ih (n + 1) (fd_onTimeout_of_closed closed (nets n) timer.2)

theorem insertTimer_ne_nil (deadline : Int) (op : TimerOp) (timers : List (Int × TimerOp)) :
    insertTimer deadline op timers ≠ [] := by
  cases timers with
  | nil => exact List.cons_ne_nil _ _
  | cons timer timers =>
      rw [insertTimer]
      split_ifs <;> exact List.cons_ne_nil _ _

/-- The socket is closed by a callback, or stays open with the timers that were left and
those of the callbacks. -/
theorem runTimers_cases (nets : Nat → Net) (opened : c.fd = true) :
    c.AnyCloses nets n timers ∧ (runTimers nets n c timers).con.fd = false ∨
      ¬c.AnyCloses nets n timers ∧ (runTimers nets n c timers).con.fd = true ∧
        ((runTimers nets n c timers).con.timers = [] ↔ c.timers = [] ∧ timers = []) := by
  induction timers generalizing n c with
  | nil =>
      refine Or.inr ⟨?_, opened, by simp [runTimers]⟩
      rintro ⟨i, timer, found, -⟩
      cases found
  | cons timer timers ih =>
      rw [anyCloses_cons]
      rcases onTimeout_cases opened (nets n) timer.2 with ⟨closes, closed⟩ | ⟨keeps, conEq⟩
      · exact Or.inl ⟨Or.inl closes, fd_runTimers_of_closed nets (n + 1) timers closed⟩
      · have first : runTimers nets n c (timer :: timers) =
            (c.onTimeout (nets n) timer.2).andThen fun c => runTimers nets (n + 1) c timers := rfl
        have added : (c.addKeepaliveTimer (nets n)).timers ≠ [] := insertTimer_ne_nil _ _ _
        rw [first, Out.andThen, conEq]
        -- a callback that does not close the socket leaves what the later ones look at
        rcases ih (c := c.addKeepaliveTimer (nets n)) (n := n + 1) opened with
          ⟨closes, closed⟩ | ⟨later, stays, left⟩
        · exact Or.inl ⟨Or.inr closes, closed⟩
        · refine Or.inr ⟨not_or.mpr ⟨keeps, later⟩, stays, ?_⟩
          simp [left, added]

/-- An open connection has no timer left, or no socket, exactly when it has none before or
the timers that are due close the socket. -/
theorem noTimers_processTimers_iff (opened : c.fd = true) (now : Int) (nets : Nat → Net) :
    ((c.processTimers now nets).con.fd = true → (c.processTimers now nets).con.timers = []) ↔
      c.timers = [] ∨ c.ClosedByTimers now nets := by
  let c' : CliConn := { c with timers := c.timers.dropWhile fun timer => timer.1 ≤ now }
  have split : c.timers = [] ↔ c'.timers = [] ∧
      c.timers.takeWhile (fun timer => timer.1 ≤ now) = [] := by
    conv_lhs => rw [← List.takeWhile_append_dropWhile (p := fun timer => timer.1 ≤ now)
      (l := c.timers), List.append_eq_nil_iff]
    exact and_comm
  rcases runTimers_cases (c := c') (n := 0) nets opened with
    ⟨closes, closed⟩ | ⟨keeps, stays, left⟩
  · refine iff_of_true ?_ (Or.inr closes)
    intro opened'
    cases closed.symm.trans opened'
  · have noClose : ¬c.ClosedByTimers now nets := keeps
    rw [or_iff_left noClose, split]
    exact (forall_prop_of_true stays).trans left

end CliConn

/-- The connections at the call of `select`. -/
theorem mem_processTimers {now : Int} {conns : List (CliConn × (Nat → Net))} {tv : Timeval}
    {c : CliConn} : c ∈ (processTimers now conns tv).1 ↔
      ∃ conn ∈ conns, conn.1.fd = true ∧ (conn.1.processTimers now conn.2).con = c := by
  induction conns generalizing tv with
  | nil => simp [processTimers]
  | cons conn conns ih =>
      rw [List.exists_mem_cons_iff, processTimers]
      split_ifs with closed
      · rw [ih, or_iff_right]
        rintro ⟨opened, -⟩
        cases closed.symm.trans opened
      · rw [List.mem_cons, ih]
        apply or_congr_left
        have opened : conn.1.fd = true := Bool.not_eq_false _ ▸ closed
        exact ⟨fun made => ⟨opened, made.symm⟩, fun made => made.2.symm⟩

/-- The wait is bounded as it should be exactly when every open connection has no timers, or
is closed by those that are due. -/
theorem boundsWait_iff (now : Int) (conns : List (CliConn × (Nat → Net))) :
    (selecting now conns).BoundsWait now ↔
      ∀ conn ∈ conns, conn.1.fd = true →
        conn.1.timers = [] ∨ conn.1.ClosedByTimers now conn.2 := by
  rw [boundsWait_iff_noTimers]
  constructor
  · intro noTimers conn member opened
    apply (CliConn.noTimers_processTimers_iff opened now conn.2).mp
    exact noTimers _ (mem_processTimers.mpr ⟨conn, member, opened, rfl⟩)
  · intro condition c left
    rcases mem_processTimers.mp left with ⟨conn, member, opened, rfl⟩
    exact (CliConn.noTimers_processTimers_iff opened now conn.2).mpr (condition conn member opened)

/-- A connection that has logged in and sends its next keep-alive in 300 s. -/
def idleConn : CliConn where
  fd := true
  cid := [99]
  cliVer := []
  sessid := [115]
  keepaliveTimeout := 300
  loginStatus := .login
  loginStatusCode := 0
  loginTime := 0
  activeTime := 0
  svrlist := [⟨[49], 9000⟩]
  timers := [(300000000, .keepalive)]

/-- Its timeout callbacks would find a network that works. -/
def idleNets (_ : Nat) : Net := ⟨0, fun _ => true, 12, []⟩

/-- The loop waits for it without a timeout. -/
theorem waits_past_keepalive :
    (selecting 0 [(idleConn, idleNets)]).ptv = none ∧
      ¬(selecting 0 [(idleConn, idleNets)]).BoundsWait 0 := by
  have selected : selecting 0 [(idleConn, idleNets)] = ⟨[idleConn], none⟩ := rfl
  rw [selected]
  refine ⟨rfl, ?_⟩
  intro bounds
  rcases bounds idleConn (List.mem_singleton.mpr rfl) rfl (300000000, .keepalive)
    (List.mem_singleton.mpr rfl) with ⟨tv, passed, -⟩
  cases passed

end GPush.ClientSdk
