import EosPayg.Guessing
import EosPayg.PaidTime

/-!
# Guessing in the first half hour

The window of the rate limit is computed on unsigned words: in the first half hour after
boot it begins far in the future and no call is counted. The history of calls does not
outlive the boot. So a client that reboots in time is never limited, and finds every code
it tries.
-/

set_option autoImplicit false

namespace EosPayg.EarlyGuesses
open EosPayg.PaygCodes EosPayg.ManagerState EosPayg.ManagerCode EosPayg.ManagerFiles
  EosPayg.CodeLedger EosPayg.SlidingWindow EosPayg.RateLimit EosPayg.GuardedRun EosPayg.MachineRuns
open EosPayg.Guessing (codeString verified_iff)

def Early (s : Machine) : Operation → Prop
  | .addCode _ => s.world.clock.time.toNat < 1800
  | _ => True

def Answered (hmac : Hmac) (s : Machine) : Operation → Prop
  | .addCode codeStr =>
    (addCode hmac s.world.manager s.world.clock codeStr).1 ≠ .error tooManyAttemptsError
  | _ => True

instance (s : Machine) (op : Operation) : Decidable (Early s op) :=
  match op with
  | .addCode _ => inferInstanceAs (Decidable (_ < _))
  | .timePasses _ => isTrue trivial
  | .wallclockTimeChanged _ => isTrue trivial
  | .clearCode => isTrue trivial
  | .save => isTrue trivial
  | .powerCycle _ _ => isTrue trivial

structure Taking (key : List UInt8) (m : EpgManager) (now : UInt64) : Prop where
  enabled : m.enabled = true
  cancelled : m.cancelled = false
  key : m.keyBytes = key
  calls : ∃ ts, m.rateLimiting.history = ring 0 rateLimitingNAttempts ts ∧
    ts.Pairwise (fun s u => u ≤ s) ∧ ∀ s ∈ ts, s ≤ now

variable {hmac : Hmac} {key : List UInt8} {m m' : EpgManager} {clock : EpgClock}

theorem fresh_taking {now : UInt64} (he : m.enabled = true) (hn : m.cancelled = false)
    (hk : m.keyBytes = key) (hl : m.rateLimiting = noAttempts) : Taking key m now :=
  ⟨he,hn,hk,[],by rw [hl]; exact noAttempts_ring,List.Pairwise.nil,List.forall_mem_nil _⟩

theorem taking_later {now later : UInt64} (h : Taking key m now) (hle : now ≤ later) :
    Taking key m later := by
  obtain ⟨ts,hr,hs,ht⟩ := h.calls
  exact ⟨h.enabled,h.cancelled,h.key,ts,hr,hs,fun s hm => UInt64.le_trans (ht s hm) hle⟩

theorem taking_addCode (h : Taking key m clock.time) (codeStr : List UInt8) :
    Taking key (addCode hmac m clock codeStr).2.1 clock.time := by
  obtain ⟨he,hn,hk⟩ := addCode_settings hmac m clock codeStr
  obtain ⟨ts,hr,hs,ht⟩ := h.calls
  refine ⟨he.trans h.enabled,hn.trans h.cancelled,hk.trans h.key,_,
    addCode_history hmac m ⟨clock, codeStr⟩ h.enabled ts hr,?_,?_⟩
  · split_ifs
    · exact List.Pairwise.nil
    · exact List.pairwise_cons.mpr ⟨ht,hs⟩
  · split_ifs
    · exact List.forall_mem_nil _
    · exact List.forall_mem_cons.mpr ⟨UInt64.le_refl _,ht⟩

theorem early_free (h : Taking key m clock.time) (ht : clock.time.toNat < 1800) :
    attemptsInLastPeriod m.rateLimiting clock.time < rateLimitingNAttempts := by
  obtain ⟨ts,hr,hs,hle⟩ := h.calls
  rw [← Nat.not_le,attempts_iff m.rateLimiting ts clock.time hr hs hle]
  omega

theorem early_answered (h : Taking key m clock.time) (ht : clock.time.toNat < 1800)
    (codeStr : List UInt8) : (addCode hmac m clock codeStr).1 ≠ .error tooManyAttemptsError :=
  (limited_result hmac m clock codeStr h.enabled).mpr (early_free h ht)

theorem early_accepted (h : Taking key m clock.time) (hk : 64 ≤ key.length)
    (ht : clock.time.toNat < 1800) (codeStr : List UInt8) (c : UsedCode) :
    acceptedCode hmac m clock codeStr = some c ↔
      codeStr = codeString hmac key c ∧ c ∉ m.usedCodes.codes := by
  rw [acceptedCode_iff,h.key,verified_iff hmac key hk]
  exact and_iff_right ⟨h.enabled,h.cancelled,early_free h ht⟩

structure Searching (m₀ : EpgManager) (s : Machine) : Prop where
  taking : Taking m₀.keyBytes s.world.manager s.world.clock.time
  used : ∀ c ∈ s.world.manager.usedCodes.codes, c ∈ m₀.usedCodes.codes ∨ c ∈ s.credited
  saved : ∀ c ∈ s.saved.usedCodes.codes, c ∈ m₀.usedCodes.codes ∨ c ∈ s.credited

theorem start_searching (he : m.enabled = true) (hn : m.cancelled = false)
    (hl : m.rateLimiting = noAttempts) (clock : EpgClock) : Searching m (start m clock) :=
  ⟨fresh_taking he hn rfl hl,fun _ hc => Or.inl hc,fun _ hc => Or.inl hc⟩

variable {m₀ : EpgManager} {s s' : Machine}

theorem manager_searching (h : Searching m₀ s) (he : m'.enabled = s.world.manager.enabled)
    (hn : m'.cancelled = s.world.manager.cancelled)
    (hk : m'.keyBytes = s.world.manager.keyBytes)
    (hl : m'.rateLimiting = s.world.manager.rateLimiting)
    (hu : m'.usedCodes = s.world.manager.usedCodes) :
    Searching m₀ { s with world.manager := m' } := by
  obtain ⟨⟨he₀,hn₀,hk₀,hc₀⟩,hused,hsaved⟩ := h
  refine ⟨⟨he.trans he₀,hn.trans hn₀,hk.trans hk₀,?_⟩,?_,hsaved⟩
  · show ∃ ts, m'.rateLimiting.history = _ ∧ _
    rw [hl]
    exact hc₀
  · show ∀ c ∈ m'.usedCodes.codes, _
    rw [hu]
    exact hused

theorem jump_searching (h : Searching m₀ s) (delta : Int64) :
    Searching m₀ { s with
      world.manager := (wallclockTimeChanged s.world.manager s.world.clock delta).1 } := by
  rw [wallclockTimeChanged_state]
  split_ifs <;> exact manager_searching h rfl rfl rfl rfl rfl

theorem clear_searching (h : Searching m₀ s) :
    Searching m₀ { s with
      world.manager := (clearCode s.world.manager s.world.clock).2.1 } := by
  rw [clearCode_state _ _ h.taking.enabled h.taking.cancelled]
  exact manager_searching h rfl rfl rfl rfl rfl

theorem still_credited (op : Operation) (c : UsedCode)
    (hc : c ∈ m₀.usedCodes.codes ∨ c ∈ s.credited) :
    c ∈ m₀.usedCodes.codes ∨ c ∈ s.credited++credits hmac s.world op :=
  hc.imp_right (List.mem_append_left _)

theorem addCode_searching (h : Searching m₀ s) (codeStr : List UInt8) :
    Searching m₀ (s.account hmac (.addCode codeStr) { s.world with
      manager := (addCode hmac s.world.manager s.world.clock codeStr).2.1 }) := by
  refine ⟨taking_addCode h.taking codeStr,?_,fun c hc => still_credited _ c (h.saved c hc)⟩
  intro c hc
  rcases (mem_addCode hmac _ _ codeStr c).mp hc with hold | hnew
  · exact still_credited _ c (h.used c hold)
  · exact Or.inr (List.mem_append_right _ (Option.mem_toList.mpr hnew))

theorem powerCycle_searching (h : Searching m₀ s) {clock : EpgClock} {files : Directory}
    (hf : s.Finds (.powerCycle clock files)) (hm : initialise clock files = some m') :
    Searching m₀ (s.account hmac (.powerCycle clock files) ⟨m', clock⟩) := by
  cases initialise_holds hm hf.1 hf.2
  exact ⟨fresh_taking rfl rfl h.taking.key rfl,fun c hc => still_credited _ c (h.saved c hc),
    fun c hc => still_credited _ c (h.saved c hc)⟩

theorem step_searching (op : Operation) (h : Searching m₀ s) (hs : s.step hmac op = some s') :
    Searching m₀ s' := by
  obtain ⟨hf,w,hw,rfl⟩ := step_some.mp hs
  have hnone : s.credited++[] = s.credited := List.append_nil _
  cases op with
  | timePasses clock =>
    simp only [World.step] at hw
    split_ifs at hw with hle
    cases hw
    unfold Machine.account credits
    rw [hnone]
    exact ⟨taking_later h.taking hle,h.used,h.saved⟩
  | wallclockTimeChanged delta =>
    cases hw
    unfold Machine.account credits
    rw [hnone]
    exact jump_searching h delta
  | clearCode =>
    cases hw
    unfold Machine.account credits
    rw [hnone]
    exact clear_searching h
  | addCode codeStr =>
    cases hw
    exact addCode_searching h codeStr
  | save =>
    cases hw
    unfold Machine.account credits
    rw [hnone]
    exact ⟨h.taking,h.used,h.used⟩
  | powerCycle clock files =>
    obtain ⟨m',hm,rfl⟩ := Option.map_eq_some_iff.mp hw
    exact powerCycle_searching h hf hm

theorem step_credited (hk : 64 ≤ m₀.keyBytes.length) (op : Operation) (h : Searching m₀ s)
    (hearly : Early s op) (hs : s.step hmac op = some s') (c : UsedCode) :
    (c ∈ m₀.usedCodes.codes ∨ c ∈ s'.credited) ↔
      (c ∈ m₀.usedCodes.codes ∨ c ∈ s.credited) ∨
        op = .addCode (codeString hmac m₀.keyBytes c) := by
  obtain ⟨-,w,-,rfl⟩ := step_some.mp hs
  show _ ∨ c ∈ s.credited++credits hmac s.world op ↔ _
  cases op with
  | addCode codeStr =>
    have hacc : acceptedCode hmac s.world.manager s.world.clock codeStr = some c ↔ _ :=
      early_accepted h.taking hk hearly codeStr c
    rw [credits,List.mem_append,Option.mem_toList,hacc,← or_assoc,Operation.addCode.injEq]
    exact or_congr_right' fun hnew => and_iff_left fun hc => hnew (h.used c hc)
  | _ => simp [credits]

/-- A client that enters codes in the first half hour after a boot only, over any number
of boots at any moments, is never asked to wait. It finds exactly the codes it tries: all
of them when it tries the strings of the numbers below 2^26. -/
theorem early_guesses (hmac : Hmac) (m : EpgManager) (clock : EpgClock) (ops : List Operation)
    (t : Machine) (he : m.enabled = true) (hn : m.cancelled = false)
    (hl : m.rateLimiting = noAttempts) (hk : 64 ≤ m.keyBytes.length)
    (hr : run (Machine.step hmac) ops (start m clock) = some t)
    (hearly : Along (Machine.step hmac) Early ops (start m clock)) :
    Along (Machine.step hmac) (Answered hmac) ops (start m clock) ∧
      (∀ c, c ∈ m.usedCodes.codes ∨ c ∈ t.credited ↔
        c ∈ m.usedCodes.codes ∨ .addCode (codeString hmac m.keyBytes c) ∈ ops) ∧
      ((∀ n < 2^26, .addCode (decimalDigits 8 n) ∈ ops) →
        ∀ c, c ∈ m.usedCodes.codes ∨ c ∈ t.credited) := by
  have hi := start_searching he hn hl clock
  have hfound (c : UsedCode) : c ∈ m.usedCodes.codes ∨ c ∈ t.credited ↔
      c ∈ m.usedCodes.codes ∨ .addCode (codeString hmac m.keyBytes c) ∈ ops := by
    have hraised := raised_iff_meets_along
      (fun s op s' h _ hs => step_searching op h hs)
      (fun s op s' h hq hs => step_credited hk op h hq hs c) hi hearly hr
    rw [meets_iff_exists hr] at hraised
    simpa [start] using hraised
  refine ⟨?_,hfound,fun hall c => (hfound c).mpr (Or.inr (hall _ ?_))⟩
  · refine along_of_invariant_along (fun s op s' h _ hs => step_searching op h hs) ?_ hi hearly
    intro s op h hq
    cases op with
    | addCode codeStr => exact early_answered h.taking hq codeStr
    | _ => trivial
  · exact CodeAcceptance.generated_lt hmac c.period c.counter m.keyBytes

def twoBoots : List Operation :=
  (List.range 12).map (fun _ => .addCode [])++
    [.timePasses ⟨600, 5600, true⟩,
      .powerCycle ⟨20, 5700, true⟩
        (directoryOf ⟨5000, 0, noUsedCodes⟩ (List.replicate 64 0)),
      .addCode fiveSeconds]

theorem early_guesses_example :
    ∃ t, run (Machine.step zeroHmac) twoBoots (start freshManager ⟨20, 5000, true⟩) = some t ∧
      t.credited = [⟨1, .period5Seconds⟩] ∧
      Along (Machine.step zeroHmac) (Answered zeroHmac) twoBoots
        (start freshManager ⟨20, 5000, true⟩) := by
  have hfound : (run (Machine.step zeroHmac) twoBoots (start freshManager ⟨20, 5000, true⟩)).map
      Machine.credited = some [⟨1, .period5Seconds⟩] := by decide +kernel
  obtain ⟨t,ht,hft⟩ := Option.map_eq_some_iff.mp hfound
  exact ⟨t,ht,hft,(early_guesses zeroHmac freshManager ⟨20, 5000, true⟩ twoBoots t rfl rfl rfl
    (by decide) ht (by decide +kernel)).1⟩

end EosPayg.EarlyGuesses
