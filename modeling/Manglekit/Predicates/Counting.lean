import Manglekit.Predicates.RateLimiter

/-!
# What the limiters count

A window opens with a call, covers a minute and counts the calls in it.  The limiter of a
pair keeps the pair's current window as long as the map keeps the limiter.
-/

namespace Manglekit.Predicates

/-! ## Windows -/

structure Window where
  opened : Int
  count : Int
  deriving DecidableEq, Repr

def Window.Covers (window : Window) (now : Int) : Prop := now ≤ window.opened + minute

instance (window : Window) (now : Int) : Decidable (window.Covers now) :=
  inferInstanceAs (Decidable (_ ≤ _))

def Window.next (now : Int) : Option Window → Window
  | none => ⟨now, 1⟩
  | some window => if window.Covers now then ⟨window.opened, window.count + 1⟩ else ⟨now, 1⟩

def windowAfter (times : List Int) : Option Window :=
  times.foldl (fun window now => some (Window.next now window)) none

def timesFor (pair : String × Int) (calls : List Call) : List Int :=
  calls.filterMap fun call =>
    if (pairOf call.inputs).toOption = some pair then some call.counted else none

def windowFor (pair : String × Int) (calls : List Call) : Option Window :=
  windowAfter (timesFor pair calls)

variable {pair : String × Int} {call : Call} (calls : List Call)

theorem windowFor_concat_self (asked : pairOf call.inputs = .ok pair) :
    windowFor pair (calls ++ [call]) = some (Window.next call.counted (windowFor pair calls)) := by
  simp [windowFor, timesFor, windowAfter, asked, Except.toOption]

theorem windowFor_concat_of_ne (other : pairOf call.inputs ≠ .ok pair) :
    windowFor pair (calls ++ [call]) = windowFor pair calls := by
  have different : (pairOf call.inputs).toOption ≠ some pair := by
    cases asked : pairOf call.inputs with
    | error err => simp [Except.toOption]
    | ok asked' => simpa [Except.toOption, asked] using other
  simp [windowFor, timesFor, different]

variable {window : Option Window}

theorem next_of_not_covers {now : Int}
    (ended : ∀ current, window = some current → ¬ current.Covers now) :
    Window.next now window = ⟨now, 1⟩ := by
  cases window with
  | none => rfl
  | some window => simp [Window.next, ended window rfl]

/-! ## Limiters -/

def Window.entry (window : Window) : RateLimitEntry := ⟨window.count, window.opened + minute⟩

structure Tracks (limiter : RateLimiter) (pair : String × Int) (window : Option Window) :
    Prop where
  limit : limiter.limit = pair.2
  minute : limiter.window = minute
  entry : limiter.entries.lookup pair.1 = window.map Window.entry

theorem tracks_new (pair : String × Int) : Tracks (newRateLimiter pair.2 minute) pair none :=
  ⟨rfl, rfl, rfl⟩

theorem Tracks.isExceeded {limiter : RateLimiter}
    (tracks : Tracks limiter pair window) (now : Int) :
    Tracks (limiter.isExceeded now pair.1).2 pair (some (Window.next now window)) ∧
      ((limiter.isExceeded now pair.1).1 = true ↔
        (∃ current ∈ window, current.Covers now) ∧ pair.2 < (Window.next now window).count) := by
  obtain ⟨limit, wide, entry⟩ := tracks
  unfold RateLimiter.isExceeded
  cases window with
  | none =>
    simp only [entry, Option.map_none]
    exact ⟨⟨limit, wide, by simp [wide, Window.next, Window.entry]⟩, by simp⟩
  | some window =>
    simp only [entry, Option.map_some]
    by_cases covered : window.Covers now
    · have current : ¬ now > window.entry.windowEnd := not_lt.mpr covered
      simp only [current, if_false]
      refine ⟨⟨limit, wide, ?_⟩, ?_⟩
      · simp [Window.next, covered, Window.entry]
      · simp [Window.next, covered, Window.entry, limit]
    · have ended : now > window.entry.windowEnd := not_le.mp covered
      simp only [ended, if_true]
      refine ⟨⟨limit, wide, ?_⟩, ?_⟩
      · simp [Window.next, covered, wide, Window.entry]
      · simp [covered]

def Faithful (calls : List Call) (limiters : Limiters) : Prop :=
  ∀ key limit limiter, limiters.rateLimiters (limiterKey key limit) = some limiter →
    (windowFor (key, limit) calls).isSome = true ∧
      Tracks limiter (key, limit) (windowFor (key, limit) calls)

theorem getOrCreateLimiter_cases (limiters : Limiters) (call : Call) (key : String)
    (limit : Int) :
    (∃ limiter, limiters.rateLimiters (limiterKey key limit) = some limiter ∧
        limiters.getOrCreateLimiter call key limit = (limiter, limiters)) ∨
      (limiters.rateLimiters (limiterKey key limit) = none ∧
        (limiters.getOrCreateLimiter call key limit).1 = newRateLimiter limit minute ∧
        ∀ other limiter, other ≠ limiterKey key limit →
          (limiters.getOrCreateLimiter call key limit).2.rateLimiters other = some limiter →
          limiters.rateLimiters other = some limiter) := by
  cases found : limiters.rateLimiters (limiterKey key limit) with
  | some limiter =>
    exact Or.inl ⟨limiter, rfl, by simp only [Limiters.getOrCreateLimiter, found]⟩
  | none =>
    refine Or.inr ⟨rfl, ?_, ?_⟩
    · simp only [Limiters.getOrCreateLimiter, found]
      split_ifs <;> rfl
    · intro other limiter distinct
      simp only [Limiters.getOrCreateLimiter, found]
      split_ifs
      · intro kept
        obtain ⟨present, _⟩ := Option.filter_eq_some_iff.mp kept
        exact (Function.update_of_ne distinct _ _).symm.trans present
      · intro kept
        exact (Function.update_of_ne distinct _ _).symm.trans kept

/-! ## Calls -/

def InWindow (pair : String × Int) (earlier : List Call) (now : Int) : Prop :=
  ∃ window ∈ windowFor pair earlier, window.Covers now

instance (pair : String × Int) (earlier : List Call) (now : Int) :
    Decidable (InWindow pair earlier now) :=
  inferInstanceAs (Decidable (∃ window ∈ windowFor pair earlier, window.Covers now))

/-- A call in an open window finds the limiter that has counted the window, and a call that
opens a window is within the limit by itself. -/
def Countable (earlier : List Call) (call : Call) : Prop :=
  match pairOf call.inputs with
  | .error _ => True
  | .ok (key, limit) =>
    if InWindow (key, limit) earlier call.counted then
      ((afterCalls earlier).rateLimiters (limiterKey key limit)).isSome = true
    else 1 ≤ limit

def AllCountable (earlier : List Call) : List Call → Prop
  | [] => True
  | call :: rest => Countable earlier call ∧ AllCountable (earlier ++ [call]) rest

variable {earlier : List Call}

theorem allCountable_concat {calls : List Call} :
    AllCountable earlier (calls ++ [call]) ↔
      AllCountable earlier calls ∧ Countable (earlier ++ calls) call := by
  induction calls generalizing earlier with
  | nil => simp [AllCountable]
  | cons first rest ih =>
    simp only [List.cons_append, AllCountable, ih, List.append_assoc, List.nil_append, and_assoc]

theorem afterCalls_concat (call : Call) :
    afterCalls (calls ++ [call]) = (rateLimitExceeded (afterCalls calls) call).2 := by
  simp [afterCalls]

section

variable (faithful : Faithful earlier (afterCalls earlier))

include faithful

theorem tracks_getOrCreateLimiter {key : String} {limit : Int} (countable : Countable earlier call)
    (asked : pairOf call.inputs = .ok (key, limit)) :
    ∃ window,
      Tracks ((afterCalls earlier).getOrCreateLimiter call key limit).1 (key, limit) window ∧
      Window.next call.counted window = Window.next call.counted (windowFor (key, limit) earlier) ∧
      ((∃ current ∈ window, current.Covers call.counted) ↔
        InWindow (key, limit) earlier call.counted) := by
  rcases getOrCreateLimiter_cases (afterCalls earlier) call key limit with
    ⟨limiter, found, same⟩ | ⟨absent, new, _⟩
  · rw [same]
    exact ⟨_, (faithful key limit limiter found).2, rfl, Iff.rfl⟩
  · -- The pair has no limiter, so no window of it is open.
    have ended : ¬ InWindow (key, limit) earlier call.counted := by
      intro isOpen
      simp [Countable, asked, isOpen, absent] at countable
    rw [new]
    refine ⟨none, tracks_new (key, limit), ?_, by simpa using ended⟩
    rw [next_of_not_covers fun current held covers => ended ⟨current, held, covers⟩]
    rfl

theorem Faithful.step {call : Call} (countable : Countable earlier call) :
    Faithful (earlier ++ [call]) (afterCalls (earlier ++ [call])) := by
  rw [afterCalls_concat]
  intro key limit limiter
  cases asked : pairOf call.inputs with
  | error err =>
    simp only [rateLimitExceeded, asked]
    rw [windowFor_concat_of_ne earlier (by simp [asked])]
    exact faithful key limit limiter
  | ok pair =>
    obtain ⟨askedKey, askedLimit⟩ := pair
    simp only [rateLimitExceeded, asked, Limiters.writeBack]
    by_cases same : (key, limit) = (askedKey, askedLimit)
    · cases same
      rw [Function.update_self, windowFor_concat_self earlier asked]
      intro written
      obtain ⟨_, _, rfl⟩ := Option.map_eq_some_iff.mp written
      obtain ⟨window, tracks, sameNext, _⟩ := tracks_getOrCreateLimiter faithful countable asked
      rw [← sameNext]
      exact ⟨rfl, (tracks.isExceeded call.counted).1⟩
    · have distinct : limiterKey key limit ≠ limiterKey askedKey askedLimit := by
        intro equal
        obtain ⟨rfl, rfl⟩ := limiterKey_injective equal
        exact same rfl
      rw [Function.update_of_ne distinct,
        windowFor_concat_of_ne earlier (by simpa [asked] using Ne.symm same)]
      intro kept
      refine faithful key limit limiter ?_
      rcases getOrCreateLimiter_cases (afterCalls earlier) call askedKey askedLimit with
        ⟨found, _, unchanged⟩ | ⟨_, _, others⟩
      · rwa [unchanged] at kept
      · exact others _ _ distinct kept

end

theorem faithful_afterCalls {calls : List Call} (countable : AllCountable [] calls) :
    Faithful calls (afterCalls calls) := by
  induction calls using List.reverseRecOn with
  | nil =>
    intro key limit limiter found
    cases found
  | append_singleton calls call ih =>
    obtain ⟨before, last⟩ := allCountable_concat.mp countable
    exact (ih before).step last

/-- In every sequence of calls that can be counted, a call reports that the limit is exceeded
exactly if its pair has had more calls than the limit in the current window. -/
theorem rate_limit_counts (earlier : List Call) (call : Call) {key : String} {limit : Int}
    (asked : pairOf call.inputs = .ok (key, limit))
    (countable : AllCountable [] (earlier ++ [call])) :
    (rateLimitExceeded (afterCalls earlier) call).1 = .ok [[true]] ↔
      ∃ window ∈ windowFor (key, limit) (earlier ++ [call]), limit < window.count := by
  obtain ⟨before, thisCall⟩ := allCountable_concat.mp countable
  obtain ⟨window, tracks, sameNext, sameCovers⟩ :=
    tracks_getOrCreateLimiter (faithful_afterCalls before) thisCall asked
  have answer := (tracks.isExceeded call.counted).2
  rw [sameNext, sameCovers] at answer
  have reported : (rateLimitExceeded (afterCalls earlier) call).1 = .ok [[true]] ↔
      (((afterCalls earlier).getOrCreateLimiter call key limit).1.isExceeded
        call.counted key).1 = true := by
    simp only [rateLimitExceeded, asked]
    split_ifs with exceeded <;> simp [exceeded]
  rw [reported, answer, windowFor_concat_self earlier asked]
  simp only [Option.mem_some_iff, exists_eq_left']
  refine ⟨And.right, fun more => ⟨?_, more⟩⟩
  -- The first call of a window is within the limit.
  by_contra ended
  have within : 1 ≤ limit := by simpa [Countable, asked, ended] using thisCall
  rw [next_of_not_covers fun current held covers => ended ⟨current, held, covers⟩] at more
  exact absurd more (not_lt.mpr within)

def askAt (key : String) (limit now : Int) : Call :=
  ⟨[.string "req", .string key, .int64 limit], now, now, now⟩

/-- The first call of the process pays for the sweep, and the pair is asked for after it. -/
def sweptBefore : List Call :=
  [askAt "other" 5 minute, askAt "user" 1 minute]

theorem sweptBefore_counted :
    AllCountable [] (sweptBefore ++ [askAt "user" 1 minute]) ∧
      (rateLimitExceeded (afterCalls sweptBefore) (askAt "user" 1 minute)).1 = .ok [[true]] := by
  have countable : AllCountable [] (sweptBefore ++ [askAt "user" 1 minute]) := by
    simp only [sweptBefore, List.cons_append, List.nil_append, AllCountable, Countable, askAt,
      pairOf]
    decide +kernel
  have counted : ∃ window ∈ windowFor ("user", 1) (sweptBefore ++ [askAt "user" 1 minute]),
      1 < window.count := ⟨⟨minute, 2⟩, by decide +kernel, by decide⟩
  exact ⟨countable,
    (rate_limit_counts sweptBefore (askAt "user" 1 minute) rfl countable).mpr counted⟩

/-- The very first call creates the limiter, sweeps it, and counts where nobody looks again. -/
theorem first_call_forgotten :
    (rateLimitExceeded (afterCalls [askAt "user" 1 minute]) (askAt "user" 1 minute)).1 = .ok [] ∧
      windowFor ("user", 1) [askAt "user" 1 minute, askAt "user" 1 minute] =
        some ⟨minute, 2⟩ := by
  decide +kernel

end Manglekit.Predicates
