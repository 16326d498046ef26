import Justup.Geo.ReaderSwap

/-!
# A replaced database is not answered from

Three locks guard the readers, the queries and the cache.  What one step of a thread leaves of
what the others rely on is said once; the rest of the invariant is read off step by step.
-/

namespace Justup.Geo.Reader

open Store Lib.Transition Lib.Locks

variable {env : Env} {s s' : State} {thread : Nat} {call : Call}

/-! ## The sections -/

namespace Phase

/-- Under `_reader_lock`. -/
def inReader : Phase → Bool
  | .checking | .looking | .stamping | .opening _ | .swapping _ | .replacing _ | .marking _
  | .clearing _ | .retiring _ | .closing _ | .leaving => true
  | _ => false

/-- Under `_reader_query_lock`. -/
def inQuery : Phase → Bool
  | .closing _ | .verifying _ | .querying _ _ => true
  | _ => false

/-- Under `_geo_cache_lock`, from one step to the next. -/
def inCache : Phase → Bool
  | .replacing _ | .marking _ | .clearing _ => true
  | _ => false

end Phase

/-- Where a thread stands; without a call it is in no section, as one that begins. -/
def phaseOf (call : Option Call) : Phase := (call.map Call.phase).getD .entering

@[simp] theorem phaseOf_some (call : Call) : phaseOf (some call) = call.phase := rfl

@[simp] theorem phaseOf_none : phaseOf none = .entering := rfl

/-! ## The invariant -/

namespace State

/-- The current reader is this one or a later one. -/
def Reached (s : State) (reader : Nat) : Prop :=
  ∃ current, s.reader = some current ∧ reader ≤ current

/-- A reader a call may use: not older than the one current when it began. -/
structure Usable (s : State) (since : Option Nat) (reader : Nat) : Prop where
  since : ∀ first, since = some first → first ≤ reader
  reached : s.Reached reader

/-- While the generation is the current one and no swap is under way, so is the reader. -/
structure Tagged (s : State) (reader generation : Nat) : Prop where
  le : generation ≤ s.generation
  current : s.cacheLock = none → generation = s.generation → s.reader = some reader

/-- The reader just opened is newer than all before. -/
structure Ready (s : State) (swap : Swap) : Prop where
  previous : ∀ previous, swap.previous = some previous → previous < swap.fresh
  opened : swap.fresh < s.opened.length
  newer : ∀ current, s.reader = some current → current < swap.fresh

structure Replaced (s : State) (swap : Swap) : Prop where
  previous : ∀ previous, swap.previous = some previous → previous < swap.fresh
  current : s.reader = some swap.fresh

def PhaseOk (s : State) (ip : Text) (since : Option Nat) : Phase → Prop
  | .swapping swap | .replacing swap => s.Ready swap
  | .marking swap | .clearing swap => s.Replaced swap
  | .retiring previous | .closing previous => s.Reached (previous + 1)
  | .got (some reader) | .consulting reader | .queueing reader | .verifying reader =>
      s.Usable since reader
  | .querying reader generation =>
      s.Usable since reader ∧ s.Tagged reader generation ∧ reader ∉ s.closed
  | .storing reader generation result =>
      s.Usable since reader ∧ s.Tagged reader generation ∧ result = s.answer reader ip
  | _ => True

structure CallOk (s : State) (call : Call) : Prop where
  since : ∀ first, call.since = some first → s.Reached first
  phase : s.PhaseOk call.ip call.since call.phase

/-- An answer comes from a reader that the call may use, or says nothing. -/
def AnswerOk (s : State) (answer : Answer) : Prop :=
  match answer.origin with
  | none => answer.value = none
  | some origin =>
      origin < s.opened.length ∧ (∀ first, answer.since = some first → first ≤ origin) ∧
        answer.value = s.answer origin answer.ip

/-- What holds of the parts that the threads share. -/
structure Shared (s : State) : Prop where
  opened : ∀ reader, s.reader = some reader → reader < s.opened.length
  closed : ∀ reader ∈ s.closed, s.Reached (reader + 1)
  cached : s.cacheLock = none → ∀ entry ∈ s.cache,
    s.reader = some entry.2.origin ∧ entry.2.value = s.answer entry.2.origin entry.1
  returned : ∀ answer ∈ s.returned, s.AnswerOk answer

structure Sound (s : State) : Prop where
  shared : s.Shared
  readerHeld : Held s.readerLock (fun call => (phaseOf call).inReader) s.calls
  queryHeld : Held s.queryLock (fun call => (phaseOf call).inQuery) s.calls
  cacheHeld : Held s.cacheLock (fun call => (phaseOf call).inCache) s.calls
  calls : ∀ thread call, s.calls thread = some call → s.CallOk call

end State

/-! ## What a step leaves to the other threads -/

/-- A step of a thread in the phase: without the reader lock it keeps the reader, without the
query lock what is closed; and a generation stands for one reader. -/
structure Advances (s s' : State) (phase : Phase) : Prop where
  opened : ∃ fresh, s'.opened = s.opened ++ fresh
  reader : s'.reader = s.reader ∨
    phase.inReader = true ∧ ∀ reader, s.Reached reader → s'.Reached reader
  closed : s'.closed = s.closed ∨ phase.inQuery = true
  generation : s.generation ≤ s'.generation
  tag : s'.cacheLock = none → s'.generation = s.generation →
    s.cacheLock = none ∧ s'.reader = s.reader

/-- A step that changes none of what is shared, locks apart. -/
structure Quiet (s s' : State) : Prop where
  opened : s'.opened = s.opened := by rfl
  closed : s'.closed = s.closed := by rfl
  reader : s'.reader = s.reader := by rfl
  generation : s'.generation = s.generation := by rfl
  cache : s'.cache = s.cache := by rfl
  cacheLock : s'.cacheLock = s.cacheLock := by rfl

theorem Quiet.advances (hquiet : Quiet s s') (phase : Phase) : Advances s s' phase where
  opened := ⟨[], by simp [hquiet.opened]⟩
  reader := .inl hquiet.reader
  closed := .inl hquiet.closed
  generation := hquiet.generation.ge
  tag hfree _ := ⟨hquiet.cacheLock ▸ hfree, hquiet.reader⟩

/-- A reader that was reached was opened. -/
theorem State.Shared.lt_length (hshared : s.Shared) {reader : Nat} (hreached : s.Reached reader) :
    reader < s.opened.length := by
  obtain ⟨current, hcurrent, hle⟩ := hreached
  exact hle.trans_lt (hshared.opened current hcurrent)

namespace Advances

variable {phase : Phase}

theorem reached (hadv : Advances s s' phase) {reader : Nat} (hreached : s.Reached reader) :
    s'.Reached reader := by
  obtain hsame | ⟨-, hlater⟩ := hadv.reader
  · obtain ⟨current, hcurrent, hle⟩ := hreached
    exact ⟨current, hsame.trans hcurrent, hle⟩
  · exact hlater reader hreached

theorem length_le (hadv : Advances s s' phase) : s.opened.length ≤ s'.opened.length := by
  obtain ⟨fresh, hfresh⟩ := hadv.opened
  simp [hfresh]

/-- A reader answers from the file it was opened from. -/
theorem answer_eq (hadv : Advances s s' phase) {reader : Nat} (hreader : reader < s.opened.length)
    (ip : Text) : s'.answer reader ip = s.answer reader ip := by
  obtain ⟨fresh, hfresh⟩ := hadv.opened
  simp only [State.answer, hfresh, List.getElem?_append_left hreader]

theorem usable (hadv : Advances s s' phase) {since : Option Nat} {reader : Nat}
    (husable : s.Usable since reader) : s'.Usable since reader :=
  ⟨husable.since, hadv.reached husable.reached⟩

theorem tagged (hadv : Advances s s' phase) {reader generation : Nat}
    (htag : s.Tagged reader generation) : s'.Tagged reader generation where
  le := htag.le.trans hadv.generation
  current hfree heq := by
    have hgeneration : s'.generation = s.generation :=
      le_antisymm (heq ▸ htag.le) hadv.generation
    obtain ⟨hbefore, hreader⟩ := hadv.tag hfree hgeneration
    exact hreader.trans (htag.current hbefore (heq.trans hgeneration))

theorem answerOk (hadv : Advances s s' phase) {answer : Answer} (hok : s.AnswerOk answer) :
    s'.AnswerOk answer := by
  cases horigin : answer.origin with
  | none => simpa only [State.AnswerOk, horigin] using hok
  | some origin =>
      simp only [State.AnswerOk, horigin] at hok ⊢
      obtain ⟨hopened, hsince, hvalue⟩ := hok
      exact ⟨hopened.trans_le hadv.length_le, hsince,
        hvalue.trans (hadv.answer_eq hopened answer.ip).symm⟩

/-- The call of another thread keeps what it relies on: what is not stable by itself is guarded
by a lock that it holds. -/
theorem callOk (hadv : Advances s s' phase) (hshared : s.Shared) {other : Call}
    (hok : s.CallOk other) (hreader : other.phase.inReader = true → phase.inReader = false)
    (hquery : other.phase.inQuery = true → phase.inQuery = false) : s'.CallOk other where
  since first hfirst := hadv.reached (hok.since first hfirst)
  phase := by
    have hguarded : other.phase.inReader = true → s'.reader = s.reader := fun hinside =>
      hadv.reader.resolve_right fun hmoved => by simp [hreader hinside] at hmoved
    have hunclosed : other.phase.inQuery = true → s'.closed = s.closed := fun hinside =>
      hadv.closed.resolve_right fun hclosing => by simp [hquery hinside] at hclosing
    have hphase := hok.phase
    cases hat : other.phase with
    | swapping swap | replacing swap =>
        simp only [hat, State.PhaseOk, Phase.inReader, forall_const] at hphase hguarded ⊢
        exact ⟨hphase.previous, hphase.opened.trans_le hadv.length_le,
          hguarded ▸ hphase.newer⟩
    | marking swap | clearing swap =>
        simp only [hat, State.PhaseOk, Phase.inReader, forall_const] at hphase hguarded ⊢
        exact ⟨hphase.previous, hguarded.trans hphase.current⟩
    | retiring previous | closing previous =>
        simp only [hat, State.PhaseOk] at hphase ⊢
        exact hadv.reached hphase
    | got reader =>
        cases reader with
        | none => trivial
        | some reader =>
            simp only [hat, State.PhaseOk] at hphase ⊢
            exact hadv.usable hphase
    | consulting reader | queueing reader | verifying reader =>
        simp only [hat, State.PhaseOk] at hphase ⊢
        exact hadv.usable hphase
    | querying reader generation =>
        simp only [hat, State.PhaseOk, Phase.inQuery, forall_const] at hphase hunclosed ⊢
        obtain ⟨husable, htag, hopen⟩ := hphase
        exact ⟨hadv.usable husable, hadv.tagged htag, hunclosed ▸ hopen⟩
    | storing reader generation result =>
        simp only [hat, State.PhaseOk] at hphase ⊢
        obtain ⟨husable, htag, hresult⟩ := hphase
        have hopened : reader < s.opened.length := hshared.lt_length husable.reached
        exact ⟨hadv.usable husable, hadv.tagged htag,
          hresult.trans (hadv.answer_eq hopened other.ip).symm⟩
    | entering | stating | comparing _ | returning | waiting | checking | looking | stamping
    | opening _ | leaving => trivial

end Advances

/-! ## One step -/

/-- A step of a thread keeps the invariant if what it does to the locks fits its phases, and what
it leaves of the shared state, the others and its own call is in order. -/
theorem State.Sound.moved (hs : s.Sound) {before : Phase} (hat : phaseOf (s.calls thread) = before)
    {after : Option Call} (hcalls : s'.calls = Function.update s.calls thread after)
    (hreader : Turn thread s.readerLock before.inReader s'.readerLock (phaseOf after).inReader)
    (hquery : Turn thread s.queryLock before.inQuery s'.queryLock (phaseOf after).inQuery)
    (hcache : Turn thread s.cacheLock before.inCache s'.cacheLock (phaseOf after).inCache)
    (hadv : Advances s s' before) (hshared : s'.Shared)
    (hafter : ∀ next, after = some next → s'.CallOk next) : s'.Sound where
  shared := hshared
  readerHeld := by
    rw [hcalls]
    exact hs.readerHeld.turn (by simpa only [hat] using hreader)
  queryHeld := by
    rw [hcalls]
    exact hs.queryHeld.turn (by simpa only [hat] using hquery)
  cacheHeld := by
    rw [hcalls]
    exact hs.cacheHeld.turn (by simpa only [hat] using hcache)
  calls other next hnext := by
    rw [hcalls] at hnext
    by_cases hother : other = thread
    · subst hother
      rw [Function.update_self] at hnext
      exact hafter next hnext
    · rw [Function.update_of_ne hother] at hnext
      refine hadv.callOk hs.shared (hs.calls other next hnext) ?_ ?_
      · intro hinside
        have hholder : (phaseOf (s.calls other)).inReader = true := by simpa [hnext] using hinside
        have hout := hs.readerHeld.outside hholder (Ne.symm hother)
        simpa only [hat] using hout
      · intro hinside
        have hholder : (phaseOf (s.calls other)).inQuery = true := by simpa [hnext] using hinside
        have hout := hs.queryHeld.outside hholder (Ne.symm hother)
        simpa only [hat] using hout

namespace Quiet

/-- What is shared stays in order when no answer is added, or one that is. -/
theorem shared (hquiet : Quiet s s') (hshared : s.Shared)
    (hreturned : ∀ answer ∈ s'.returned, answer ∈ s.returned ∨ s.AnswerOk answer) :
    s'.Shared := by
  have hadv := hquiet.advances .entering
  refine ⟨?_, ?_, ?_, ?_⟩
  · rw [hquiet.reader, hquiet.opened]
    exact hshared.opened
  · rw [hquiet.closed]
    exact fun reader hclosed => hadv.reached (hshared.closed reader hclosed)
  · rw [hquiet.cacheLock, hquiet.cache, hquiet.reader]
    intro hfree entry hentry
    obtain ⟨hcurrent, hvalue⟩ := hshared.cached hfree entry hentry
    refine ⟨hcurrent, hvalue.trans ?_⟩
    exact (hadv.answer_eq (hshared.opened _ hcurrent) entry.1).symm
  · intro answer hanswer
    obtain hold | hnew := hreturned answer hanswer
    · exact hadv.answerOk (hshared.returned answer hold)
    · exact hadv.answerOk hnew

theorem callOk (hquiet : Quiet s s') (hshared : s.Shared) (hok : s.CallOk call) :
    s'.CallOk call :=
  (hquiet.advances .entering).callOk hshared hok (fun _ => rfl) (fun _ => rfl)

end Quiet

namespace State.Sound

variable {ip : Text} {since : Option Nat} {attempt : Nat} {before after : Phase}

/-- The call moves on, and at most takes or gives up a lock that is not the one of the cache. -/
theorem go (hs : s.Sound) (hat : s.calls thread = some ⟨ip, since, attempt, before⟩)
    {readerLock queryLock : Option Nat} {readerStamp : Option Stamp} {attempt' : Nat}
    (hreader : Turn thread s.readerLock before.inReader readerLock after.inReader)
    (hquery : Turn thread s.queryLock before.inQuery queryLock after.inQuery)
    (hcache : after.inCache = before.inCache) (hafter : s.PhaseOk ip since after) :
    ({ s with
        readerStamp := readerStamp
        readerLock := readerLock
        queryLock := queryLock }.put thread ⟨ip, since, attempt', before⟩ after).Sound := by
  have hquiet : Quiet s ({ s with
      readerStamp := readerStamp
      readerLock := readerLock
      queryLock := queryLock }.put thread ⟨ip, since, attempt', before⟩ after) := {}
  refine hs.moved (congrArg phaseOf hat) rfl hreader hquery ?_ (hquiet.advances before)
    (hquiet.shared hs.shared fun answer hanswer => .inl hanswer) ?_
  · simp only [phaseOf_some, hcache]
    exact .keep
  · rintro next ⟨⟩
    exact hquiet.callOk hs.shared ⟨(hs.calls thread _ hat).since, hafter⟩

/-- The call returns, and at most gives up the query lock. -/
theorem finish (hs : s.Sound) {call : Call} (hat : phaseOf (s.calls thread) = before)
    {queryLock : Option Nat} {value : Option GeoLocation} {origin : Option Nat}
    (hreader : before.inReader = false) (hcache : before.inCache = false)
    (hquery : Turn thread s.queryLock before.inQuery queryLock false)
    (hanswer : s.AnswerOk ⟨call.ip, call.since, value, origin⟩) :
    ({ s with queryLock := queryLock }.finish thread call value origin).Sound := by
  have hquiet : Quiet s ({ s with queryLock := queryLock }.finish thread call value origin) := {}
  refine hs.moved hat rfl ?_ hquery ?_ (hquiet.advances before) (hquiet.shared hs.shared ?_) ?_
  · rw [hreader]
    exact .keep
  · rw [hcache]
    exact .keep
  · intro answer hmem
    obtain hold | hnew := List.mem_append.mp hmem
    · exact .inl hold
    · exact .inr (List.mem_singleton.mp hnew ▸ hanswer)
  · rintro next ⟨⟩

/-- The reader a call gets was current, or there was none. -/
theorem got (hs : s.Sound) (hat : s.calls thread = some ⟨ip, since, attempt, before⟩) :
    s.PhaseOk ip since (.got s.reader) := by
  cases hcurrent : s.reader with
  | none => trivial
  | some reader =>
      refine ⟨fun first hfirst => ?_, reader, hcurrent, le_refl reader⟩
      obtain ⟨current, hreader, hle⟩ := (hs.calls thread _ hat).since first hfirst
      obtain rfl : reader = current := Option.some.inj (hcurrent.symm.trans hreader)
      exact hle

/-! ### `_get_reader` -/

theorem enter (hs : s.Sound) (hat : s.calls thread = some ⟨ip, since, attempt, .entering⟩) :
    (s.enter env thread ⟨ip, since, attempt, .entering⟩).Sound := by
  simp only [State.enter]
  split
  · split
    · exact hs.go hat .keep .keep rfl trivial
    · exact hs.go hat .keep .keep rfl trivial
  · exact hs.go hat .keep .keep rfl trivial

theorem recheck (hs : s.Sound) (hat : s.calls thread = some ⟨ip, since, attempt, .checking⟩)
    (fails : Bool) : (s.recheck thread ⟨ip, since, attempt, .checking⟩ fails).Sound := by
  simp only [State.recheck]
  split
  · exact hs.go hat (.release rfl) .keep rfl (hs.got hat)
  · exact hs.go hat .keep .keep rfl trivial

theorem look (hs : s.Sound) (hat : s.calls thread = some ⟨ip, since, attempt, .looking⟩) :
    (s.look thread ⟨ip, since, attempt, .looking⟩).Sound := by
  simp only [State.look]
  split
  · exact hs.go hat .keep .keep rfl trivial
  · exact hs.go hat (.release rfl) .keep rfl (hs.got hat)

/-- The reader just opened comes after all that were opened before. -/
theorem openReader {stamp : Option Stamp} (hs : s.Sound)
    (hat : s.calls thread = some ⟨ip, since, attempt, .opening stamp⟩) (fails : Bool) :
    (s.openReader thread ⟨ip, since, attempt, .opening stamp⟩ stamp fails).Sound := by
  simp only [State.openReader]
  split
  · rename_i file hfile
    set next : State := { s with opened := s.opened ++ [file.content] }.put thread
      ⟨ip, since, attempt, .opening stamp⟩ (.swapping ⟨s.reader, s.opened.length, stamp⟩) with hnext
    have hadv : Advances s next (.opening stamp) :=
      { opened := ⟨[file.content], rfl⟩
        reader := .inl rfl
        closed := .inl rfl
        generation := le_refl s.generation
        tag := fun hfree _ => ⟨hfree, rfl⟩ }
    refine hs.moved (congrArg phaseOf hat) rfl .keep .keep .keep hadv ?_ ?_
    · refine ⟨?_, hs.shared.closed, ?_, ?_⟩
      · exact fun reader hreader => (hs.shared.opened reader hreader).trans_le hadv.length_le
      · intro hfree entry hentry
        obtain ⟨hcurrent, hvalue⟩ := hs.shared.cached hfree entry hentry
        refine ⟨hcurrent, hvalue.trans ?_⟩
        exact (hadv.answer_eq (hs.shared.opened _ hcurrent) entry.1).symm
      · exact fun answer hanswer => hadv.answerOk (hs.shared.returned answer hanswer)
    · rintro call ⟨⟩
      refine ⟨(hs.calls thread _ hat).since, ?_, ?_, ?_⟩
      · exact fun previous hprevious => hs.shared.opened previous hprevious
      · simp [hnext, State.put]
      · exact fun current hcurrent => hs.shared.opened current hcurrent
  · exact hs.go hat (.release rfl) .keep rfl (hs.got hat)

/-- The cache is locked before it is out of step with the reader. -/
theorem lockCache {swap : Swap} (hs : s.Sound)
    (hat : s.calls thread = some ⟨ip, since, attempt, .swapping swap⟩)
    (hfree : s.cacheLock = none) :
    ({ s with cacheLock := some thread }.put thread ⟨ip, since, attempt, .swapping swap⟩
      (.replacing swap)).Sound := by
  have hready : s.Ready swap := (hs.calls thread _ hat).phase
  refine hs.moved (congrArg phaseOf hat) rfl .keep .keep (.acquire hfree) ?_ ?_ ?_
  · exact ⟨⟨[], by simp [State.put]⟩, .inl rfl, .inl rfl, le_refl _, fun hnone => nomatch hnone⟩
  · exact ⟨hs.shared.opened, hs.shared.closed, fun hnone => (nomatch hnone), hs.shared.returned⟩
  · rintro call ⟨⟩
    exact ⟨(hs.calls thread _ hat).since, hready.previous, hready.opened, hready.newer⟩

/-- `_reader = fresh`, under the lock of the cache. -/
theorem replace {swap : Swap} (hs : s.Sound)
    (hat : s.calls thread = some ⟨ip, since, attempt, .replacing swap⟩) :
    ({ s with reader := some swap.fresh }.put thread ⟨ip, since, attempt, .replacing swap⟩
      (.marking swap)).Sound := by
  have hready : s.Ready swap := (hs.calls thread _ hat).phase
  have hlocked : s.cacheLock = some thread :=
    (hs.cacheHeld thread).mp (by simp [hat, Phase.inCache])
  have hlater : ∀ reader, s.Reached reader → reader ≤ swap.fresh := by
    rintro reader ⟨current, hcurrent, hle⟩
    exact hle.trans (hready.newer current hcurrent).le
  have hadv : Advances s ({ s with reader := some swap.fresh }.put thread
      ⟨ip, since, attempt, .replacing swap⟩ (.marking swap)) (.replacing swap) :=
    { opened := ⟨[], by simp [State.put]⟩
      reader := .inr ⟨rfl, fun reader hreached => ⟨swap.fresh, rfl, hlater reader hreached⟩⟩
      closed := .inl rfl
      generation := le_refl s.generation
      tag := fun hnone => nomatch hlocked.symm.trans hnone }
  refine hs.moved (congrArg phaseOf hat) rfl .keep .keep .keep hadv ?_ ?_
  · refine ⟨?_, ?_, fun hnone => (nomatch hlocked.symm.trans hnone), ?_⟩
    · rintro reader ⟨⟩
      exact hready.opened
    · exact fun reader hclosed => hadv.reached (hs.shared.closed reader hclosed)
    · exact fun answer hanswer => hadv.answerOk (hs.shared.returned answer hanswer)
  · rintro call ⟨⟩
    refine ⟨fun first hfirst => ?_, hready.previous, rfl⟩
    exact hadv.reached ((hs.calls thread _ hat).since first hfirst)

/-- The cache is empty when its lock is given up, and the generation a new one. -/
theorem clear {swap : Swap} (hs : s.Sound)
    (hat : s.calls thread = some ⟨ip, since, attempt, .clearing swap⟩) :
    (s.clear thread ⟨ip, since, attempt, .clearing swap⟩ swap).Sound := by
  have hreplaced : s.Replaced swap := (hs.calls thread _ hat).phase
  simp only [State.clear]
  refine hs.moved (congrArg phaseOf hat) rfl ?_ ?_ (?_ : Turn _ _ _ none _) ?_ ?_ ?_
  · cases swap.previous <;> exact .keep
  · cases swap.previous <;> exact .keep
  · cases swap.previous <;> exact .release rfl
  · refine ⟨⟨[], by simp [State.put]⟩, .inl rfl, .inl rfl, Nat.le_succ _, fun _ hsame => ?_⟩
    exact absurd hsame (Nat.succ_ne_self _)
  · exact ⟨hs.shared.opened, hs.shared.closed, fun _ _ hentry => (nomatch hentry),
      hs.shared.returned⟩
  · rintro call ⟨⟩
    refine ⟨(hs.calls thread _ hat).since, ?_⟩
    cases hprevious : swap.previous with
    | none => trivial
    | some previous => exact ⟨swap.fresh, hreplaced.current, hreplaced.previous previous hprevious⟩

/-- Nobody else is querying while a reader is closed, and it is not the current one. -/
theorem close {previous : Nat} (hs : s.Sound)
    (hat : s.calls thread = some ⟨ip, since, attempt, .closing previous⟩) (fails : Bool) :
    (s.close thread ⟨ip, since, attempt, .closing previous⟩ previous fails).Sound := by
  have hpassed : s.Reached (previous + 1) := (hs.calls thread _ hat).phase
  refine hs.moved (congrArg phaseOf hat) rfl .keep (.release rfl) .keep ?_ ?_ ?_
  · exact ⟨⟨[], by simp [State.close, State.put]⟩, .inl rfl, .inr rfl, le_refl _,
      fun hfree _ => ⟨hfree, rfl⟩⟩
  · refine ⟨hs.shared.opened, fun reader hreader => ?_, hs.shared.cached, hs.shared.returned⟩
    cases fails with
    | true => exact hs.shared.closed reader hreader
    | false =>
        obtain rfl | hold := List.mem_cons.mp hreader
        · exact hpassed
        · exact hs.shared.closed reader hold
  · rintro call ⟨⟩
    exact ⟨(hs.calls thread _ hat).since, trivial⟩

/-! ### `geolocate_ip` -/

theorem consult {reader : Nat} (hs : s.Sound)
    (hat : s.calls thread = some ⟨ip, since, attempt, .consulting reader⟩)
    (hfree : s.cacheLock = none) :
    (s.consult thread ⟨ip, since, attempt, .consulting reader⟩ reader).Sound := by
  have husable : s.Usable since reader := (hs.calls thread _ hat).phase
  simp only [State.consult]
  split
  · rename_i entry hentry
    obtain ⟨found, hfound, rfl⟩ := Option.map_eq_some_iff.mp hentry
    have hip : found.1 = ip := by simpa using List.find?_some hfound
    obtain ⟨hcurrent, hvalue⟩ := hs.shared.cached hfree found (List.mem_of_find?_eq_some hfound)
    obtain ⟨current, hreader, hle⟩ := husable.reached
    obtain rfl : found.2.origin = current := Option.some.inj (hcurrent.symm.trans hreader)
    refine hs.finish (congrArg phaseOf hat) rfl rfl .keep ?_
    exact ⟨hs.shared.opened _ hcurrent, fun first hfirst => (husable.since first hfirst).trans hle,
      hip ▸ hvalue⟩
  · exact hs.go hat .keep .keep rfl husable

/-- Under the query lock, a reader that is the current one has not been closed. -/
theorem verify {reader : Nat} (hs : s.Sound)
    (hat : s.calls thread = some ⟨ip, since, attempt, .verifying reader⟩) :
    (s.verify thread ⟨ip, since, attempt, .verifying reader⟩ reader).Sound := by
  have husable : s.Usable since reader := (hs.calls thread _ hat).phase
  simp only [State.verify]
  split
  · split
    · exact hs.go hat .keep (.release rfl) rfl trivial
    · exact hs.finish (congrArg phaseOf hat) rfl rfl (.release rfl) rfl
  · rename_i hsame
    obtain ⟨current, hcurrent, hle⟩ := husable.reached
    have hreader : s.reader = some reader := by simpa [hcurrent] using hsame
    refine hs.go hat .keep .keep rfl ⟨husable, ⟨le_refl _, fun _ _ => hreader⟩, fun hclosed => ?_⟩
    obtain ⟨later, hlater, hlt⟩ := hs.shared.closed reader hclosed
    obtain rfl : reader = later := Option.some.inj (hreader.symm.trans hlater)
    exact absurd hlt (Nat.not_succ_le_self reader)

theorem query {reader generation : Nat} (hs : s.Sound)
    (hat : s.calls thread = some ⟨ip, since, attempt, .querying reader generation⟩)
    (fails : Bool) :
    (s.query thread ⟨ip, since, attempt, .querying reader generation⟩ reader generation
      fails).Sound := by
  obtain ⟨husable, htag, -⟩ : s.Usable since reader ∧ s.Tagged reader generation ∧ _ :=
    (hs.calls thread _ hat).phase
  simp only [State.query]
  split
  · exact hs.finish (congrArg phaseOf hat) rfl rfl (.release rfl) rfl
  · exact hs.go hat .keep (.release rfl) rfl ⟨husable, htag, rfl⟩

/-- The entry is kept while no swap came in between. -/
theorem store {reader generation : Nat} {result : Option GeoLocation} (hs : s.Sound)
    (hat : s.calls thread = some ⟨ip, since, attempt, .storing reader generation result⟩)
    (hfree : s.cacheLock = none) :
    (s.store thread ⟨ip, since, attempt, .storing reader generation result⟩ reader generation
      result).Sound := by
  obtain ⟨husable, htag, hresult⟩ :
      s.Usable since reader ∧ s.Tagged reader generation ∧ result = s.answer reader ip :=
    (hs.calls thread _ hat).phase
  have hanswer : s.AnswerOk ⟨ip, since, result, some reader⟩ :=
    ⟨hs.shared.lt_length husable.reached, husable.since, hresult⟩
  simp only [State.store]
  split
  · rename_i hcurrent
    have hreader : s.reader = some reader := htag.current hfree hcurrent.1
    refine hs.moved (congrArg phaseOf hat) rfl .keep .keep .keep ?_ ?_ (by rintro next ⟨⟩)
    · exact ⟨⟨[], by simp [State.finish]⟩, .inl rfl, .inl rfl, le_refl _,
        fun hfree _ => ⟨hfree, rfl⟩⟩
    · refine ⟨hs.shared.opened, hs.shared.closed, fun hfree entry hentry => ?_,
        fun answer hmem => ?_⟩
      · obtain hold | hnew := List.mem_append.mp hentry
        · exact hs.shared.cached hfree entry (List.mem_of_mem_filter hold)
        · obtain rfl := List.mem_singleton.mp hnew
          exact ⟨hreader, hresult⟩
      · obtain hold | hnew := List.mem_append.mp hmem
        · exact hs.shared.returned answer hold
        · exact List.mem_singleton.mp hnew ▸ hanswer
  · exact hs.finish (congrArg phaseOf hat) rfl rfl .keep hanswer

/-! ### Every step -/

theorem advance (hs : s.Sound) (hat : s.calls thread = some call) {fails : Bool}
    (hstep : Reader.advance env thread call fails s = some s') : s'.Sound := by
  obtain ⟨ip, since, attempt, phase⟩ := call
  have hok : s.PhaseOk ip since phase := (hs.calls thread _ hat).phase
  cases phase with
  | entering => cases hstep; exact hs.enter hat
  | stating => cases hstep; exact hs.go hat .keep .keep rfl trivial
  | comparing stamp =>
      cases hstep
      split
      · exact hs.go hat .keep .keep rfl trivial
      · exact hs.go hat .keep .keep rfl trivial
  | returning => cases hstep; exact hs.go hat .keep .keep rfl (hs.got hat)
  | waiting =>
      obtain ⟨hfree, ⟨⟩⟩ := Option.ite_none_right_eq_some.mp hstep
      exact hs.go hat (.acquire hfree) .keep rfl trivial
  | checking => cases hstep; exact hs.recheck hat fails
  | looking => cases hstep; exact hs.look hat
  | stamping => cases hstep; exact hs.go hat .keep .keep rfl trivial
  | opening stamp => cases hstep; exact hs.openReader hat fails
  | swapping swap =>
      obtain ⟨hfree, ⟨⟩⟩ := Option.ite_none_right_eq_some.mp hstep
      exact hs.lockCache hat hfree
  | replacing swap => cases hstep; exact hs.replace hat
  | marking swap => cases hstep; exact hs.go hat .keep .keep rfl hok
  | clearing swap => cases hstep; exact hs.clear hat
  | retiring previous =>
      obtain ⟨hfree, ⟨⟩⟩ := Option.ite_none_right_eq_some.mp hstep
      exact hs.go hat .keep (.acquire hfree) rfl hok
  | closing previous => cases hstep; exact hs.close hat fails
  | leaving => cases hstep; exact hs.go hat (.release rfl) .keep rfl trivial
  | got reader =>
      cases reader with
      | none =>
          cases hstep
          exact hs.finish (congrArg phaseOf hat) rfl rfl .keep rfl
      | some reader => cases hstep; exact hs.go hat .keep .keep rfl hok
  | consulting reader =>
      obtain ⟨hfree, ⟨⟩⟩ := Option.ite_none_right_eq_some.mp hstep
      exact hs.consult hat hfree
  | queueing reader =>
      obtain ⟨hfree, ⟨⟩⟩ := Option.ite_none_right_eq_some.mp hstep
      exact hs.go hat .keep (.acquire hfree) rfl hok
  | verifying reader =>
      obtain ⟨-, ⟨⟩⟩ := Option.ite_none_right_eq_some.mp hstep
      exact hs.verify hat
  | querying reader generation => cases hstep; exact hs.query hat fails
  | storing reader generation result =>
      obtain ⟨hfree, ⟨⟩⟩ := Option.ite_none_right_eq_some.mp hstep
      exact hs.store hat hfree

theorem step {act : Action} (hs : s.Sound) (hstep : Reader.step env s act = some s') :
    s'.Sound := by
  cases act with
  | replace file =>
      cases hstep
      have hquiet : Quiet s { s with file := file } := {}
      exact ⟨hquiet.shared hs.shared fun answer hanswer => .inl hanswer, hs.readerHeld,
        hs.queryHeld, hs.cacheHeld, fun other call hcall =>
          hquiet.callOk hs.shared (hs.calls other call hcall)⟩
  | step thread fails =>
      simp only [Reader.step] at hstep
      split at hstep
      · cases hstep
      · rename_i call hat
        exact hs.advance hat hstep
  | call thread ip =>
      simp only [Reader.step] at hstep
      split at hstep
      · cases hstep
      · rename_i hidle
        have hat : phaseOf (s.calls thread) = .entering := by rw [hidle, phaseOf_none]
        split at hstep
        · cases hstep
          have hquiet : Quiet s { s with
            calls := Function.update s.calls thread (some ⟨ip, s.reader, 0, .entering⟩) } := {}
          refine hs.moved hat rfl .keep .keep .keep (hquiet.advances .entering)
            (hquiet.shared hs.shared fun answer hanswer => .inl hanswer) ?_
          rintro next ⟨⟩
          exact ⟨fun first hfirst => ⟨first, hfirst, le_refl first⟩, trivial⟩
        · cases hstep
          exact hs.finish hat rfl rfl .keep rfl

end State.Sound

theorem sound_initial : State.Sound {} where
  shared :=
    { opened := by simp
      closed := by simp
      cached := by simp
      returned := by simp }
  readerHeld := by simp [Held, Phase.inReader]
  queryHeld := by simp [Held, Phase.inQuery]
  cacheHeld := by simp [Held, Phase.inCache]
  calls := by simp

/-! ## The result -/

/-- Readers count in the order in which they were opened.  Outside a swap every cached value is
the definitive answer of the current reader; a call that ended with the answer of a reader did not
use an older one than was current when it began; and a reader that is being queried is open. -/
structure State.NeverStale (s : State) : Prop where
  cached : s.cacheLock = none → ∀ entry ∈ s.cache, ∃ content,
    s.reader = some entry.2.origin ∧ s.opened[entry.2.origin]? = some content ∧
      entry.2.value = content.answer entry.1
  returned : ∀ answer ∈ s.returned,
    match answer.origin with
    | none => answer.value = none
    | some origin => (∀ first, answer.since = some first → first ≤ origin) ∧
        ∃ content, s.opened[origin]? = some content ∧ answer.value = content.answer answer.ip
  querying : ∀ thread call reader generation, s.calls thread = some call →
    call.phase = .querying reader generation → reader ∉ s.closed

theorem State.answer_eq_of_lt {reader : Nat} (hopened : reader < s.opened.length) (ip : Text) :
    ∃ content, s.opened[reader]? = some content ∧ s.answer reader ip = content.answer ip := by
  refine ⟨s.opened[reader], List.getElem?_eq_getElem hopened, ?_⟩
  simp only [State.answer, List.getElem?_eq_getElem hopened, Option.bind_some]

theorem State.Sound.neverStale (hs : s.Sound) : s.NeverStale where
  cached hfree entry hentry := by
    obtain ⟨hcurrent, hvalue⟩ := hs.shared.cached hfree entry hentry
    obtain ⟨content, hcontent, hanswer⟩ :=
      State.answer_eq_of_lt (hs.shared.opened _ hcurrent) entry.1
    exact ⟨content, hcurrent, hcontent, hvalue.trans hanswer⟩
  returned answer hmem := by
    have hok := hs.shared.returned answer hmem
    cases horigin : answer.origin with
    | none => simpa only [State.AnswerOk, horigin] using hok
    | some origin =>
        simp only [State.AnswerOk, horigin] at hok
        obtain ⟨hopened, hsince, hvalue⟩ := hok
        obtain ⟨content, hcontent, hanswer⟩ := State.answer_eq_of_lt hopened answer.ip
        exact ⟨hsince, content, hcontent, hvalue.trans hanswer⟩
  querying thread call reader generation hat hphase := by
    have hok := (hs.calls thread call hat).phase
    rw [hphase] at hok
    exact hok.2.2

/-- However calls, swaps and replacements of the file interleave, no answer is stale. -/
theorem replaced_database_is_never_answered_from (env : Env) (acts : List Action) (s : State)
    (hrun : run (step env) {} acts = some s) : s.NeverStale :=
  (@run_invariant _ _ _ State.Sound State.Sound.step _ _ _ sound_initial hrun).neverStale

/-- A database with one place for every address. -/
def everywhere (version : Int) (lat : ℚ) : File :=
  ⟨(version, version, version), fun _ =>
    some ⟨some (.number lat), some (.number 0), none, none, none, none⟩⟩

/-- The first call has queried when the file is replaced; the second swaps the reader before the
first stores what it read, which is then dropped, and stores its own. -/
def swapActs : List Action :=
  [.replace (some (everywhere 1 10)), .call 0 ['a']] ++ List.replicate 17 (.step 0 false) ++
    [.replace (some (everywhere 2 20)), .call 1 ['a']] ++ List.replicate 14 (.step 1 false) ++
    [.step 0 false] ++ List.replicate 8 (.step 1 false)

theorem replaced_database_is_never_answered_from_swap :
    ∃ s, run (step ⟨true, fun _ => true⟩) {} swapActs = some s ∧
      s.returned.map Answer.origin = [some 0, some 1] ∧
      s.cache.map (fun entry => entry.2.origin) = [1] ∧ s.closed = [0] ∧ s.NeverStale := by
  have hends : (run (step ⟨true, fun _ => true⟩) {} swapActs).any (fun s =>
      decide (s.returned.map Answer.origin = [some 0, some 1] ∧
        s.cache.map (fun entry => entry.2.origin) = [1] ∧ s.closed = [0])) = true := by decide
  obtain ⟨s, hrun, hs⟩ := (Option.any_eq_true ..).mp hends
  obtain ⟨hreturned, hcache, hclosed⟩ := of_decide_eq_true hs
  exact ⟨s, hrun, hreturned, hcache, hclosed, replaced_database_is_never_answered_from _ _ _ hrun⟩

end Justup.Geo.Reader
