import SpeeduinoDash.BusCommands
import SpeeduinoDash.RateLimit

set_option autoImplicit false

/-!
# How much of the bus the commands of one id can take

With exact rationals for tokens and seconds. The rate of an id is that of its first entry in the
list of allowed commands.
-/
namespace SpeeduinoDash.CanService
open CanInterface CanWriter CommandServer Lib.Runs Lib.RateLimiter

variable (unpack : List UInt8 → Option CanCommand) (canId : UInt32)

def sentFrame (s : CanService ℚ) (t : LoopTurn ℚ) : Option KernelFrame :=
  ((s.handedFrame unpack t).map (fun frame => s.iface.send frame t.write)).bind SendReport.written

def busTimes (s : CanService ℚ) : List (Op ℚ) → List ℚ
  | [] => []
  | .arrive message :: ops => busTimes (s.step unpack (.arrive message)) ops
  | .turn t :: ops =>
    if ∃ cf ∈ (s.receiveFrame t).sentFrame unpack t, cf.canId = canId then
      t.commandTime :: busTimes (s.step unpack (.turn t)) ops
    else busTimes (s.step unpack (.turn t)) ops

def Op.commandTime : Op ℚ → Option ℚ
  | .arrive _ => none
  | .turn t => some t.commandTime

variable {unpack canId}

/-- A send leaves the limiter of another id alone; one that asks it hands over only with a token. -/
theorem send_limiter (w : CanWriter ℚ) (c : SendCall ℚ) {b : TokenBucket ℚ}
    (hb : w.rateLimiters canId = some b) :
    ((w.send c).writer.rateLimiters canId = some b ∧
      ∀ frame, (w.send c).handed = some frame → frame.id ≠ canId) ∨
    ((w.send c).writer.rateLimiters canId = some (b.tryConsume c.now).2 ∧
      ((w.send c).handed.isSome → (b.tryConsume c.now).1 = true)) := by
  by_cases hid : c.canId = canId
  · subst hid
    have hrate : w.checkRate c.canId c.now = ((b.tryConsume c.now).1,
        { w with rateLimiters :=
          Lib.Keyed.assign w.rateLimiters c.canId (b.tryConsume c.now).2 }) := by
      rw [checkRate, hb]
    obtain ⟨-, h⟩ | ⟨-, h⟩ | ⟨-, h⟩ | ⟨bytes, -, -, -, htoken, h⟩ := send_cases w c
    · exact .inl (by simp [h, hb])
    · exact .inl (by simp [h, hb])
    · exact .inr (by simp [h, hrate])
    · refine .inr ⟨by simp [h, hrate], fun _ => ?_⟩
      rwa [hrate] at htoken
  · refine .inl ⟨(send_other_limiter w c canId (Ne.symm hid)).trans hb, ?_⟩
    intro frame hframe
    obtain ⟨bytes, -, -, -, rfl⟩ := send_handed w c frame hframe
    exact hid

theorem sentFrame_canId {s : CanService ℚ} {t : LoopTurn ℚ} {cf : KernelFrame}
    (h : s.sentFrame unpack t = some cf) : ∃ frame, s.handedFrame unpack t = some frame ∧
      cf.canId = frame.id ∧ s.server.writer.isAllowed frame.id = true := by
  obtain ⟨report, hreport, hwritten⟩ := Option.bind_eq_some_iff.mp h
  obtain ⟨frame, hframe, rfl⟩ := Option.map_eq_some_iff.mp hreport
  refine ⟨frame, hframe, ?_⟩
  obtain ⟨cmd, -, hhanded⟩ := Option.bind_eq_some_iff.mp hframe
  obtain ⟨bytes, -, -, hallowed, rfl⟩ := send_handed _ _ frame hhanded
  refine ⟨?_, hallowed⟩
  obtain ⟨-, ⟨-, hsome, -⟩ | ⟨-, hnone, -⟩⟩ := send_outcome s.iface _ t.write
  · obtain rfl := Option.some.inj (hsome.symm.trans hwritten)
    simp [toKernelFrame, buildFrame]
  · rw [hnone] at hwritten
    cases hwritten

theorem takeTurn_whitelist (s : CanService ℚ) (t : LoopTurn ℚ) :
    (s.takeTurn unpack t).server.writer.whitelist = s.server.writer.whitelist := by
  let s' := s.receiveFrame t
  have hserver : s'.server = s.server := (receiveFrame_server s t).1
  have hturn : (s.takeTurn unpack t).server =
      s'.server.handleCommands unpack (s'.serverTurn t) :=
    (publishData_server (s'.serveCommand unpack t) t).1
  rw [hturn, ← hserver]
  obtain ⟨-, hs⟩ | ⟨message, inbox, cmd, -, -, -, hs⟩ | ⟨message, inbox, -, -, -, hs⟩ :=
    handleCommands_cases unpack s'.server (s'.serverTurn t)
  · rw [hs]
  · rw [hs, send_whitelist]
  · rw [hs]

/-- A turn leaves the limiter of the id alone and sends no frame of the id, or asks the limiter,
    and then sends one only with a token. -/
theorem takeTurn_limiter (s : CanService ℚ) (t : LoopTurn ℚ) {b : TokenBucket ℚ}
    (hb : s.server.writer.rateLimiters canId = some b) :
    ((s.takeTurn unpack t).server.writer.rateLimiters canId = some b ∧
      ¬ ∃ cf ∈ (s.receiveFrame t).sentFrame unpack t, cf.canId = canId) ∨
    ((s.takeTurn unpack t).server.writer.rateLimiters canId = some (b.tryConsume t.commandTime).2 ∧
      ((∃ cf ∈ (s.receiveFrame t).sentFrame unpack t, cf.canId = canId) →
        (b.tryConsume t.commandTime).1 = true)) := by
  let s' := s.receiveFrame t
  have hserver : s'.server = s.server := (receiveFrame_server s t).1
  have hturn : (s.takeTurn unpack t).server =
      s'.server.handleCommands unpack (s'.serverTurn t) :=
    (publishData_server (s'.serveCommand unpack t) t).1
  rw [← hserver] at hb
  rw [hturn]
  obtain ⟨hidle, hs⟩ | ⟨message, inbox, cmd, hidle, hinbox, hcmd, hs⟩ |
      ⟨message, inbox, hidle, hinbox, hnone, hs⟩ :=
    handleCommands_cases unpack s'.server (s'.serverTurn t)
  · refine .inl ⟨by rw [hs, hb], ?_⟩
    rintro ⟨cf, hcf, -⟩
    obtain ⟨frame, hframe, -⟩ := sentFrame_canId hcf
    rw [handedFrame_none hidle] at hframe
    cases hframe
  · have hhanded := handedFrame_some (t := t) hidle hinbox hcmd
    rw [hs]
    rcases send_limiter s'.server.writer (sendCall cmd (s'.serverTurn t)) hb with
      ⟨hlimiter, hother⟩ | ⟨hlimiter, htoken⟩
    · refine .inl ⟨hlimiter, ?_⟩
      rintro ⟨cf, hcf, hid⟩
      obtain ⟨frame, hframe, hcanId, -⟩ := sentFrame_canId hcf
      exact hother frame (hhanded ▸ hframe) (hcanId ▸ hid)
    · refine .inr ⟨hlimiter, ?_⟩
      rintro ⟨cf, hcf, -⟩
      obtain ⟨frame, hframe, -⟩ := sentFrame_canId hcf
      exact htoken (by rw [← hhanded, hframe]; rfl)
  · refine .inl ⟨by rw [hs, hb], ?_⟩
    rintro ⟨cf, hcf, -⟩
    obtain ⟨frame, hframe, -⟩ := sentFrame_canId hcf
    rw [handedFrame_undecoded hidle hinbox hnone] at hframe
    cases hframe

theorem busTimes_unlisted (s : CanService ℚ) (h : s.server.writer.isAllowed canId = false)
    (ops : List (Op ℚ)) : busTimes unpack canId s ops = [] := by
  induction ops generalizing s with
  | nil => rfl
  | cons op ops ih =>
    cases op with
    | arrive message => exact ih (s.step unpack (.arrive message)) h
    | turn t =>
      have hserver : (s.receiveFrame t).server = s.server := (receiveFrame_server s t).1
      have hsilent : ¬ ∃ cf ∈ (s.receiveFrame t).sentFrame unpack t, cf.canId = canId := by
        rintro ⟨cf, hcf, rfl⟩
        obtain ⟨frame, -, hid, hallowed⟩ := sentFrame_canId hcf
        rw [hserver, ← hid, h] at hallowed
        cases hallowed
      rw [busTimes, if_neg hsilent]
      refine ih (s.step unpack (.turn t)) ?_
      rw [isAllowed, step, takeTurn_whitelist]
      exact h

theorem successes_cons (b : TokenBucket ℚ) (t : ℚ) (ts : List ℚ) :
    b.successes (t :: ts) = if (b.tryConsume t).1 then t :: (b.tryConsume t).2.successes ts
      else (b.tryConsume t).2.successes ts := by
  cases htoken : (b.tryConsume t).1 <;> simp [TokenBucket.successes, TokenBucket.trace, htoken]

theorem busTimes_sublist (s : CanService ℚ) (b : TokenBucket ℚ)
    (hb : s.server.writer.rateLimiters canId = some b) (ops : List (Op ℚ)) :
    ∃ ts, ts.Sublist (ops.filterMap Op.commandTime) ∧
      (busTimes unpack canId s ops).Sublist (b.successes ts) := by
  induction ops generalizing s b with
  | nil => exact ⟨[], List.Sublist.refl _, List.Sublist.refl _⟩
  | cons op ops ih =>
    cases op with
    | arrive message =>
      exact ih (s.step unpack (.arrive message)) b hb
    | turn t =>
      rw [busTimes]
      rcases takeTurn_limiter s t hb with
        ⟨hlimiter, hsilent⟩ | ⟨hlimiter, htoken⟩
      · obtain ⟨ts, hts, hsub⟩ := ih (s.step unpack (.turn t)) b hlimiter
        rw [if_neg hsilent]
        exact ⟨ts, hts.trans (List.sublist_cons_self _ _), hsub⟩
      · obtain ⟨ts, hts, hsub⟩ := ih (s.step unpack (.turn t)) _ hlimiter
        refine ⟨t.commandTime :: ts, hts.cons_cons _, ?_⟩
        rw [successes_cons]
        split_ifs with hsent hgranted hgranted
        · exact hsub.cons_cons _
        · exact absurd (htoken hsent) hgranted
        · exact hsub.cons _
        · exact hsub

/-- In every window the frames of an id on the bus keep to the rate of the id, whatever the
    clients ask for; an id that is not listed does not reach the bus. -/
theorem bus_rate (unpack : List UInt8 → Option CanCommand) (canId : UInt32) (system : SystemConfig)
    (allowed : List CanCommandDef) (table : SignalTable ℚ) (fd startNs : ℕ) (startTime : ℚ)
    (ops : List (Op ℚ)) (hclock : Clocked id startTime (ops.filterMap Op.commandTime)) (a T : ℚ)
    (hT : 0 ≤ T) :
    let rate := ConfigLoader.getCommandRateLimit allowed canId
    (inWindow a T (busTimes unpack canId (started system allowed table fd startNs startTime) ops) :
      ℚ) ≤ rate.toNat + rate.toNat * T := by
  intro rate
  let s := started system allowed table fd startNs startTime
  cases hfind : allowed.find? (fun cmd => cmd.canId == canId) with
  | none =>
    have hunlisted : s.server.writer.isAllowed canId = false := by
      rw [Bool.eq_false_iff, ne_eq, started_isAllowed]
      rintro ⟨entry, hentry, rfl⟩
      exact List.find?_eq_none.mp hfind entry hentry (beq_self_eq_true entry.canId)
    rw [busTimes_unlisted s hunlisted ops]
    have hzero : (0 : ℚ) ≤ rate.toNat := Nat.cast_nonneg _
    simpa [inWindow] using add_nonneg hzero (mul_nonneg hzero hT)
  | some entry =>
    have hrate : rate = entry.rateLimitHz := by
      simp only [rate, ConfigLoader.getCommandRateLimit, hfind]
    have hlimiter : s.server.writer.rateLimiters canId =
        some (TokenBucket.new entry.rateLimitHz startTime) := by
      change (({} : CanWriter ℚ).loadAllowedCommands allowed startTime).rateLimiters canId = _
      rw [loadAllowedCommands_rateLimiters, hfind, Option.map_some]
    obtain ⟨ts, hts, hsub⟩ := busTimes_sublist s _ hlimiter ops
    have hclocked : Clocked id startTime ts :=
      ⟨fun t ht => hclock.1 t (hts.subset ht), hclock.2.sublist hts⟩
    have hwindow := TokenBucket.successes_conform entry.rateLimitHz hclocked a hT
    have hcount : (inWindow a T (busTimes unpack canId s ops) : ℚ) ≤
        inWindow a T ((TokenBucket.new entry.rateLimitHz startTime).successes ts) :=
      Nat.cast_le.mpr (hsub.filter _).length_le
    rw [hrate]
    exact hcount.trans hwindow

def busTurn (time : ℚ) : Op ℚ :=
  .turn ⟨.noData, 0, 0, time, false, fun _ => true, 0, 0⟩

theorem bus_rate_two :
    let allowed : List CanCommandDef := [{ canId := 0x100, rateLimitHz := 2 }]
    let s : CanService ℚ := started {} allowed (SignalTable.inOrder []) 3 0 0
    (inWindow 0 1 (busTimes (fun _ => some { canId := 0x100, dlc := 1 }) 0x100 s
      [.arrive [], busTurn 0, .arrive [], busTurn (1 / 2)]) : ℚ) ≤
        (ConfigLoader.getCommandRateLimit allowed 0x100).toNat +
          (ConfigLoader.getCommandRateLimit allowed 0x100).toNat * 1 := by
  intro allowed s
  refine bus_rate (fun _ => some { canId := 0x100, dlc := 1 }) 0x100 {} allowed
    (SignalTable.inOrder []) 3 0 0 [.arrive [], busTurn 0, .arrive [], busTurn (1 / 2)] ?_ 0 1
    zero_le_one
  change Clocked id (0 : ℚ) [0, 1 / 2]
  refine ⟨?_, ?_⟩
  · intro time htime
    simp only [List.mem_cons, List.not_mem_nil, or_false] at htime
    rcases htime with rfl | rfl
    · exact le_refl _
    · norm_num
  · simp

end SpeeduinoDash.CanService
