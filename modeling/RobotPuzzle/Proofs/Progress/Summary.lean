import RobotPuzzle.Proofs.Progress.Records

/-!
# The sum of recorded outcomes

What recording outcomes one after the other makes of the records does not depend on the order. It
can be read off the outcomes for each level and the levels that completed ones open.

* `Progress.summed`: progress after outcomes.
* `Progress.improves_summed`: outcomes take nothing away.
* `Records.recordEach_eq_summed`: the records after outcomes that are recorded in turn.
* `Store.sums_recordEach`: the same for both kinds of store.
-/

namespace RobotPuzzle

namespace Recording

/-- The level that the call opens because its outcome is completed. -/
def opens? (c : Recording) : Option Int :=
  if c.outcome.completed then some (c.next.getD (c.outcome.levelId + 1)) else none

/-- The outcomes for a level that are recorded. -/
def own (calls : List Recording) (id : Int) : List Outcome :=
  (calls.map outcome).filter (·.levelId = id)

/-- Whether calls record an outcome for a level, or open it because of a completed one. -/
def Concern (calls : List Recording) (id : Int) : Prop :=
  own calls id ≠ [] ∨ some id ∈ calls.map opens?

instance (calls : List Recording) (id : Int) : Decidable (Concern calls id) :=
  inferInstanceAs (Decidable (_ ∨ _))

variable {a b calls : List Recording} {id : Int}

theorem opens?_eq_some {c : Recording} : c.opens? = some id ↔
    c.outcome.completed = true ∧ c.next.getD (c.outcome.levelId + 1) = id := by
  unfold opens?
  cases c.outcome.completed <;> simp

theorem own_append (a b : List Recording) (id : Int) : own (a ++ b) id = own a id ++ own b id := by
  simp [own]

theorem own_singleton (c : Recording) (id : Int) :
    own [c] id = if c.outcome.levelId = id then [c.outcome] else [] := by
  by_cases h : c.outcome.levelId = id <;> simp [own, h]

theorem own_followed (following : Int → Option Int) (outcomes : List Outcome) (id : Int) :
    own (outcomes.map (followed following)) id = outcomes.filter (·.levelId = id) := by
  rw [own, List.map_map]
  exact congrArg _ (List.map_id outcomes)

theorem own_eq_nil (h : ¬ Concern calls id) : own calls id = [] :=
  Decidable.byContradiction fun hown => h (.inl hown)

theorem own_perm (h : a.Perm b) (id : Int) : (own a id).Perm (own b id) :=
  (h.map outcome).filter _

theorem concern_singleton {c : Recording} :
    Concern [c] id ↔ c.outcome.levelId = id ∨ c.opens? = some id := by
  simp [Concern, own_singleton, eq_comm]

theorem concern_append : Concern (a ++ b) id ↔ Concern a id ∨ Concern b id := by
  have hown : own (a ++ b) id ≠ [] ↔ own a id ≠ [] ∨ own b id ≠ [] := by
    rw [own_append]
    cases own a id <;> simp
  simp only [Concern, hown, List.map_append, List.mem_append]
  exact or_or_or_comm ..

theorem concern_perm (h : a.Perm b) : Concern a id ↔ Concern b id := by
  have hown : own a id = [] ↔ own b id = [] := by
    rw [← List.length_eq_zero_iff, ← List.length_eq_zero_iff, (own_perm h id).length_eq]
  simp only [Concern, Ne, hown, (h.map opens?).mem_iff]

end Recording

/-! ## One level -/

namespace Progress

/-- Progress after outcomes for its level. -/
def summed (p : Progress) (outcomes : List Outcome) : Progress :=
  let won := outcomes.filter (·.completed)
  { levelId := p.levelId
    completed := p.completed || !won.isEmpty
    stars := outcomes.foldl (fun stars o => max stars o.stars) p.stars
    bestBlocks := (p.bestBlocks.toList ++ won.map (·.blocksUsed)).min?
    bestTime := (p.bestTime.toList ++ won.map (·.time)).min?
    timesPlayed := p.timesPlayed + outcomes.length
    unlocked := true }

/-- Without outcomes the level is opened. -/
theorem summed_nil (p : Progress) : p.summed [] = { p with unlocked := true } := by
  have hbest : ∀ n : Option Int, n.toList.min? = n := fun n => by cases n <;> simp
  simp [summed, hbest]

theorem min?_toList_append (l more : List Int) :
    (l.min?.toList ++ more).min? = (l ++ more).min? := by
  cases l with
  | nil => rfl
  | cons n rest =>
    rw [List.min?_cons', List.cons_append, List.min?_cons', List.foldl_append, Option.toList_some,
      List.singleton_append, List.min?_cons']

theorem summed_append (p : Progress) (a b : List Outcome) :
    (p.summed a).summed b = p.summed (a ++ b) := by
  have hcompleted : (p.completed || !(a.filter (·.completed)).isEmpty ||
      !(b.filter (·.completed)).isEmpty) =
      (p.completed || !((a ++ b).filter (·.completed)).isEmpty) := by
    rw [List.filter_append]
    cases a.filter (·.completed) <;> simp
  simp only [summed, hcompleted, min?_toList_append, List.foldl_append, List.filter_append,
    List.map_append, List.append_assoc, List.length_append, Int.natCast_add, Int.add_assoc]

theorem min?_perm {a b : List Int} (h : a.Perm b) : a.min? = b.min? := by
  ext n
  simp only [List.min?_eq_some_iff, h.mem_iff]

/-- The order of the outcomes does not matter. -/
theorem summed_perm (p : Progress) {a b : List Outcome} (h : a.Perm b) :
    p.summed a = p.summed b := by
  have hwon : (a.filter (·.completed)).Perm (b.filter (·.completed)) := h.filter _
  have hstars : a.foldl (fun stars o => max stars o.stars) p.stars =
      b.foldl (fun stars o => max stars o.stars) p.stars :=
    h.foldl_eq' (fun o _ o' _ n => by omega) p.stars
  simp only [summed, hstars, h.length_eq, hwon.isEmpty_eq,
    min?_perm ((hwon.map (·.blocksUsed)).append_left p.bestBlocks.toList),
    min?_perm ((hwon.map (·.time)).append_left p.bestTime.toList)]

/-- Merging an outcome is adding it. -/
theorem merge_eq_summed (p : Progress) (o : Outcome) : p.merge o = p.summed [o] := by
  have hbest : ∀ (old : Option Int) (new : Int), best old new = (old.toList ++ [new]).min? :=
    fun old new => by cases old <;> simp [best]
  have hkept : ∀ n : Option Int, n = n.toList.min? := fun n => by cases n <;> simp
  unfold merge summed
  cases hc : o.completed with
  | true => simp [hc, hbest]
  | false => simp [hc, ← hkept]

/-- What is at least as good: no count or star is lost, nothing is closed, and no best value is
worse. -/
structure Improves (p q : Progress) : Prop where
  stars : p.stars ≤ q.stars
  timesPlayed : p.timesPlayed ≤ q.timesPlayed
  completed : p.completed = true → q.completed = true
  unlocked : p.unlocked = true → q.unlocked = true
  bestBlocks : ∀ n ∈ p.bestBlocks, ∃ m ∈ q.bestBlocks, m ≤ n
  bestTime : ∀ n ∈ p.bestTime, ∃ m ∈ q.bestTime, m ≤ n

theorem improves_self (p : Progress) : p.Improves p where
  stars := Int.le_refl _
  timesPlayed := Int.le_refl _
  completed := id
  unlocked := id
  bestBlocks n h := ⟨n, h, Int.le_refl n⟩
  bestTime n h := ⟨n, h, Int.le_refl n⟩

/-- A least number stays, or there is a smaller one. -/
theorem exists_min?_le {old : Option Int} {more : List Int} {n : Int} (h : n ∈ old) :
    ∃ m ∈ (old.toList ++ more).min?, m ≤ n := by
  have hmem : n ∈ old.toList ++ more := List.mem_append_left _ (Option.mem_toList.mpr h)
  obtain ⟨m, hm⟩ := Option.isSome_iff_exists.mp (List.isSome_min?_of_mem hmem)
  exact ⟨m, hm, (List.min?_eq_some_iff.mp hm).2 n hmem⟩

theorem stars_le_foldl_max (stars : Int) (outcomes : List Outcome) :
    stars ≤ outcomes.foldl (fun stars o => max stars o.stars) stars := by
  induction outcomes generalizing stars with
  | nil => exact Int.le_refl stars
  | cons o rest ih => exact Int.le_trans (Int.le_max_left stars o.stars) (ih _)

/-- Outcomes take nothing away. -/
theorem improves_summed (p : Progress) (outcomes : List Outcome) :
    p.Improves (p.summed outcomes) where
  stars := stars_le_foldl_max p.stars outcomes
  timesPlayed := by
    simp only [summed]
    omega
  completed h := by simp [summed, h]
  unlocked _ := rfl
  bestBlocks _ h := exists_min?_le h
  bestTime _ h := exists_min?_le h

end Progress

/-! ## All levels -/

namespace Records

variable {r : Records}

/-- The records after calls that record outcomes. -/
def summed (r : Records) (calls : List Recording) : Records := fun id =>
  if Recording.Concern calls id then
    some (((r id).getD (.opened id)).summed (Recording.own calls id))
  else r id

theorem summed_nil (r : Records) : r.summed [] = r := by
  funext id
  exact if_neg (by simp [Recording.Concern, Recording.own])

theorem summed_append (r : Records) (a b : List Recording) :
    (r.summed a).summed b = r.summed (a ++ b) := by
  funext id
  simp only [summed, Recording.concern_append, Recording.own_append]
  by_cases ha : Recording.Concern a id
  · by_cases hb : Recording.Concern b id
    · simp [ha, hb, Progress.summed_append]
    · simp [ha, hb, Recording.own_eq_nil hb]
  · by_cases hb : Recording.Concern b id
    · simp [ha, hb, Recording.own_eq_nil ha]
    · simp [ha, hb]

/-- The order of the calls does not matter. -/
theorem summed_perm (r : Records) {a b : List Recording} (h : a.Perm b) :
    r.summed a = r.summed b := by
  funext id
  simp only [summed, Recording.concern_perm h, Progress.summed_perm _ (Recording.own_perm h id)]

/-- One call. -/
theorem record_eq_summed (h : r.Valid) {c : Recording} (hc : c.outcome.Rated) :
    r.record c.outcome c.next = r.summed [c] := by
  obtain ⟨o, next⟩ := c
  have hself : ∀ id, r.save (Progress.mergeInto (r o.levelId) o) id =
      if o.levelId = id then some (((r id).getD (.opened id)).summed [o]) else r id := by
    intro id
    by_cases hid : o.levelId = id
    · subst hid
      rw [if_pos rfl, save, if_pos (levelId_mergeInto h o).symm, Progress.mergeInto,
        Progress.merge_eq_summed]
    · rw [if_neg hid, save_of_ne]
      rw [levelId_mergeInto h]
      exact Ne.symm hid
  funext id
  simp only [record, summed, Recording.concern_singleton, Recording.own_singleton,
    Recording.opens?]
  cases o.completed with
  | false =>
    rw [if_neg Bool.false_ne_true, hself]
    by_cases hid : o.levelId = id
    · simp [hid]
    · simp [hid]
  | true =>
    have hsaved := valid_save h (valid_mergeInto h hc)
    by_cases htarget : next.getD (o.levelId + 1) = id
    · rw [if_pos rfl, htarget, unlock_self hsaved, hself]
      by_cases hid : o.levelId = id
      · simp [hid, Progress.summed]
      · simp [hid, Progress.summed_nil]
    · rw [if_pos rfl, unlock_of_ne hsaved (Ne.symm htarget), hself]
      by_cases hid : o.levelId = id
      · simp [hid]
      · simp [hid, htarget]

/-- **One call after the other.** -/
theorem recordEach_eq_summed (h : r.Valid) {calls : List Recording}
    (hc : ∀ c ∈ calls, c.outcome.Rated) : r.recordEach calls = r.summed calls := by
  induction calls generalizing r with
  | nil => exact (summed_nil r).symm
  | cons c rest ih =>
    have hrated := hc c List.mem_cons_self
    have hrest := ih (valid_record h hrated c.next) fun c' hc' => hc c' (List.mem_cons_of_mem c hc')
    have hfold : r.recordEach (c :: rest) = (r.record c.outcome c.next).recordEach rest := rfl
    rw [hfold, hrest, record_eq_summed h hrated, summed_append]
    rfl

/-- The same for outcomes that are recorded each with the level that follows. -/
theorem recordAll_eq_summed (h : r.Valid) (following : Int → Option Int) {outcomes : List Outcome}
    (ho : ∀ o ∈ outcomes, o.Rated) :
    r.recordAll following outcomes = r.summed (outcomes.map (Recording.followed following)) := by
  rw [recordAll_eq_recordEach]
  exact recordEach_eq_summed h (Recording.rated_followed following ho)

/-- Each outcome counts once, for its own level. -/
theorem timesPlayed_summed (r : Records) (calls : List Recording) (id : Int) :
    (r.summed calls).timesPlayed id = r.timesPlayed id + (Recording.own calls id).length := by
  unfold timesPlayed summed
  split
  · cases r id <;> simp [Progress.summed, Progress.opened]
  · next h => simp [Recording.own_eq_nil h]

theorem timesPlayed_recordAll (h : r.Valid) (following : Int → Option Int)
    {outcomes : List Outcome} (ho : ∀ o ∈ outcomes, o.Rated) (id : Int) :
    (r.recordAll following outcomes).timesPlayed id =
      r.timesPlayed id + outcomes.countP (·.levelId = id) := by
  rw [recordAll_eq_summed h following ho, timesPlayed_summed, Recording.own_followed,
    List.countP_eq_length_filter]

/-- Calls take nothing away. -/
theorem improves_of_summed (calls : List Recording) {id : Int} {p : Progress}
    (hp : r id = some p) : ∃ q, r.summed calls id = some q ∧ p.Improves q := by
  unfold summed
  split
  · rw [hp]
    exact ⟨_, rfl, p.improves_summed _⟩
  · exact ⟨p, hp, p.improves_self⟩

end Records

namespace Store

variable {st : Store} {r : Records} {calls : List Recording}

/-- What a call answers. -/
theorem fst_record (h : st.Shows r) (hr : r.Valid) {o : Outcome} (ho : o.Rated)
    (next : Option Int) :
    (st.record o next).1 = .ok (Progress.mergeInto (r o.levelId) o) := by
  have hmerged := Records.valid_mergeInto hr ho
  simp only [record, recordThen, h o.levelId]
  cases o.completed with
  | false => rfl
  | true =>
    obtain ⟨st', hst, -⟩ := shows_unlock (shows_save h hmerged) (Records.valid_save hr hmerged)
      (next.getD (o.levelId + 1))
    simp only [↓reduceIte, hst]

/-- A call that records an outcome answers with the record for its level as it is from then on, and
takes nothing away from the record for any level. -/
structure Gains (st : Store) (c : Recording) : Prop where
  answer : ∃ p, (st.record c.outcome c.next).1 = .ok p ∧
    (st.record c.outcome c.next).2.get c.outcome.levelId = .ok (some p)
  improves : ∀ id p, st.get id = .ok (some p) →
    ∃ q, (st.record c.outcome c.next).2.get id = .ok (some q) ∧ p.Improves q

theorem gains_of_shows (h : st.Shows r) (hr : r.Valid) {c : Recording} (hc : c.outcome.Rated) :
    st.Gains c := by
  have hafter := (shows_record h hr hc c.next).2
  rw [Records.record_eq_summed hr hc] at hafter
  refine ⟨⟨_, fst_record h hr hc c.next, ?_⟩, fun id p hp => ?_⟩
  · rw [hafter, Records.summed, if_pos (Recording.concern_singleton.mpr (.inl rfl)),
      Recording.own_singleton, if_pos rfl, Progress.mergeInto, Progress.merge_eq_summed]
  · rw [h id, Except.ok.injEq] at hp
    obtain ⟨q, hq, himproves⟩ := Records.improves_of_summed [c] hp
    exact ⟨q, by rw [hafter, hq], himproves⟩

/-- **The sum of recorded outcomes.** Whatever the store holds at first, each record for its own
level, recording outcomes one after the other makes of it what can be read off the outcomes, in
whatever order they are recorded, and no call takes anything away. -/
theorem sums_recordEach (h : st.Shows r) (hr : r.Valid) (hc : ∀ c ∈ calls, c.outcome.Rated) :
    (st.recordEach calls).Shows (r.summed calls) ∧
      (∀ calls', calls'.Perm calls → ∀ id,
        (st.recordEach calls').get id = (st.recordEach calls).get id) ∧
      ∀ earlier c later, calls = earlier ++ c :: later → (st.recordEach earlier).Gains c := by
  have hshows : ∀ {calls : List Recording}, (∀ c ∈ calls, c.outcome.Rated) →
      (st.recordEach calls).Shows (r.summed calls) := fun hc =>
    Records.recordEach_eq_summed hr hc ▸ shows_recordEach h hr hc
  refine ⟨hshows hc, fun calls' hperm id => ?_, fun earlier c later hcalls => ?_⟩
  · rw [hshows hc, hshows fun c hmem => hc c (hperm.mem_iff.mp hmem), Records.summed_perm r hperm]
  · subst hcalls
    have hearlier : ∀ c ∈ earlier, c.outcome.Rated := fun c hmem => hc c (by simp [hmem])
    exact gains_of_shows (shows_recordEach h hr hearlier) (Records.valid_recordEach hr hearlier)
      (hc c (by simp))

end Store

/-! ## A sample -/

/-- A ledger in which only the second level has a record, and is locked. -/
def lockedSecond : Ledger := ⟨[⟨2, false, 0, none, none, 0, false⟩]⟩

/-- An outcome of a level. -/
def outcomeOf (levelId : Int) (completed : Bool) (stars blocksUsed time : Int) : Outcome :=
  { levelId, completed, stars, blocksUsed, optimalBlocks := 4, coins := 0, gems := 0
    steps := blocksUsed, time, score := 0, xp := 0, sparks := 0, perfect := false
    reason := none }

/-- The first level is completed, the second one failed, and the first one completed again. -/
def threeOutcomes : List Recording :=
  [⟨outcomeOf 1 true 3 4 90, none⟩, ⟨outcomeOf 2 false 0 5 10, none⟩,
    ⟨outcomeOf 1 true 2 5 30, some 3⟩]

/-- The best of both outcomes is kept for the first level, the second one is unlocked and has been
played once, and the third one is opened. The other way round it is the same. -/
theorem sums_threeOutcomes :
    let st := Store.memory lockedSecond
    let after := st.recordEach threeOutcomes
    after.get 1 = .ok (some ⟨1, true, 3, some 4, some 30, 2, true⟩) ∧
      after.get 2 = .ok (some ⟨2, false, 0, none, none, 1, true⟩) ∧
      after.get 3 = .ok (some (.opened 3)) ∧
      (∀ id, (st.recordEach threeOutcomes.reverse).get id = after.get id) ∧
      st.Gains threeOutcomes[0] := by
  intro st after
  have hshows : st.Shows lockedSecond.get? := fun _ => rfl
  have hvalid : Records.Valid lockedSecond.get? := Ledger.valid_get? fun p hp => by
    cases List.mem_singleton.mp hp
    exact ⟨by decide, by decide⟩
  have hrated : ∀ c ∈ threeOutcomes, c.outcome.Rated := by
    have hstars : ∀ c ∈ threeOutcomes, 0 ≤ c.outcome.stars ∧ c.outcome.stars ≤ 3 := by decide
    exact fun c hc => ⟨(hstars c hc).1, (hstars c hc).2⟩
  obtain ⟨hafter, hperm, hgains⟩ := Store.sums_recordEach hshows hvalid hrated
  refine ⟨(hafter 1).trans (congrArg Except.ok ?_), (hafter 2).trans (congrArg Except.ok ?_),
    (hafter 3).trans (congrArg Except.ok ?_), hperm _ threeOutcomes.reverse_perm, hgains [] _ _ rfl⟩
  all_goals decide

end RobotPuzzle
