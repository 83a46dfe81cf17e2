import Mathlib.Data.List.Nodup
import RobotPuzzle.Proofs.Catalog.Loading

/-!
# One view of the levels

All that a catalog answers comes from the same levels in ascending order: an id finds its level, the
level that follows an id is the one with the least id above it, and going on from level to level
comes by all of them. The chapters share the levels out among themselves. None of this depends on
what the files are called.

* `LevelIndex.flatMap_ofChapter_perm`: each level is in one chapter, its own.
* `Catalog.visits_index`: going from level to level comes by all levels in order.
* `Catalog.answersFrom_index`: what is answered from an index.
* `Catalog.viewsFiles`: loading and all answers, for any files and any names for them.
-/

namespace RobotPuzzle

namespace LevelIndex

variable {index : LevelIndex}

theorem nodup_ids (h : index.Pairwise (·.id < ·.id)) : index.ids.Nodup :=
  List.pairwise_map.mpr (h.imp fun hlt => Int.ne_of_lt hlt)

/-! ## Chapters -/

theorem nodup_eraseDups (numbers : List Int) : numbers.eraseDups.Nodup := by
  -- What is behind the first number is shortened by its repetitions.
  induction hlength : numbers.length using Nat.strongRecOn generalizing numbers with
  | ind n ih =>
    cases numbers with
    | nil => exact List.nodup_nil
    | cons number rest =>
      have hshorter : (rest.filter fun b => !b == number).length < n := by
        have := List.length_filter_le (fun b => !b == number) rest
        rw [List.length_cons] at hlength
        omega
      rw [List.eraseDups_cons]
      refine List.nodup_cons.mpr ⟨fun hmem => ?_, ih _ hshorter _ rfl⟩
      simpa using List.mem_filter.mp (List.mem_eraseDups.mp hmem)

/-- The numbers of the chapters in ascending order. -/
def numbers (index : LevelIndex) : List Int :=
  (index.map Level.chapter).eraseDups.mergeSort fun a b => a ≤ b

theorem chapters_eq (index : LevelIndex) : index.chapters = index.numbers.map index.chapter := rfl

theorem mem_numbers {n : Int} : n ∈ index.numbers ↔ ∃ level ∈ index, level.chapter = n := by
  rw [numbers, List.mem_mergeSort, List.mem_eraseDups, List.mem_map]

theorem ascending_numbers (index : LevelIndex) : index.numbers.Pairwise (· < ·) := by
  have hsorted : index.numbers.Pairwise (· ≤ ·) := by
    refine (List.pairwise_mergeSort (fun a b c => ?_) (fun a b => ?_) _).imp of_decide_eq_true
    · simpa using Int.le_trans
    · simpa using Int.le_total a b
  have hnodup : index.numbers.Nodup :=
    (List.mergeSort_perm _ _).nodup_iff.mpr (nodup_eraseDups _)
  exact (hsorted.and hnodup).imp fun ⟨hle, hne⟩ => Int.lt_iff_le_and_ne.mpr ⟨hle, hne⟩

theorem mem_ofChapter {n : Int} {level : Level} :
    level ∈ index.ofChapter n ↔ level ∈ index ∧ level.chapter = n := by
  simp [ofChapter]

/-- Each level is in one chapter, its own. -/
theorem flatMap_ofChapter_perm (h : index.Nodup) :
    (index.numbers.flatMap index.ofChapter).Perm index := by
  have hnodup : (index.numbers.flatMap index.ofChapter).Nodup := by
    refine List.nodup_flatMap.mpr ⟨fun n _ => h.filter _, ?_⟩
    refine (ascending_numbers index).imp fun hlt level hn hm => ?_
    have hn := (mem_ofChapter.mp hn).2
    have hm := (mem_ofChapter.mp hm).2
    omega
  refine (List.perm_ext_iff_of_nodup hnodup h).mpr fun level => ?_
  simp only [List.mem_flatMap, mem_ofChapter]
  constructor
  · rintro ⟨n, -, hmem, -⟩
    exact hmem
  · intro hmem
    exact ⟨_, mem_numbers.mpr ⟨level, hmem, rfl⟩, hmem, rfl⟩

/-! ## The next level -/

/-- Behind levels up to an id, the first level follows that id. -/
theorem next?_append {before rest : List Level} {id : Int}
    (hbefore : ∀ level ∈ before, level.id ≤ id) (hrest : ∀ level ∈ rest, id < level.id) :
    next? (before ++ rest) id = rest.head? := by
  have hskip : before.find? (fun level => decide (id < level.id)) = none := by
    simpa using hbefore
  rw [next?, List.find?_append, hskip, Option.none_or]
  cases rest with
  | nil => rfl
  | cons level rest => simp [hrest level List.mem_cons_self]

end LevelIndex

namespace Catalog

variable {c : Catalog} {index : LevelIndex}

/-- How the chapters of an index share out its levels. -/
structure SharesOut (c : Catalog) (index : LevelIndex) : Prop where
  ascending : (index.chapters.map Chapter.number).Pairwise (· < ·)
  /-- The chapters are those of the levels. -/
  numbers : ∀ n, n ∈ index.chapters.map Chapter.number ↔ ∃ level ∈ index, level.chapter = n
  levels_ascending : ∀ chapter ∈ index.chapters, chapter.levels.Pairwise (· < ·)
  /-- A level is listed in its own chapter. -/
  own : ∀ chapter ∈ index.chapters, ∀ level ∈ index,
    level.id ∈ chapter.levels ↔ level.chapter = chapter.number
  /-- All together list each level once. -/
  once : (index.chapters.flatMap Chapter.levels).Perm index.ids
  /-- The levels of a chapter are those that it lists. -/
  listed : ∀ chapter ∈ index.chapters, ∃ levels,
    c.ofChapter (.int chapter.number) = .ok levels ∧ levels.ids = chapter.levels
  /-- Other chapters have no levels. -/
  others : ∀ n, (∀ level ∈ index, level.chapter ≠ n) → c.ofChapter (.int n) = .ok []

theorem ofChapter_of_index (h : c.index = .ok index) (n : Int) :
    c.ofChapter (.int n) = .ok (index.ofChapter n) := by
  have hnumber : ∀ level : Level,
      ((Json.int n).whole? == some level.chapter) = (level.chapter == n) := by
    intro level
    rw [Json.whole?_int, Option.some_beq_some]
    exact BEq.comm
  simp only [ofChapter, h, hnumber]
  rfl

theorem sharesOut_index (h : c.index = .ok index) (hordered : index.Ordered) :
    c.SharesOut index := by
  have hids := LevelIndex.nodup_ids hordered.ascending
  have hnumbers : index.chapters.map Chapter.number = index.numbers := by
    rw [LevelIndex.chapters_eq, List.map_map]
    exact List.map_id _
  have hchapters : ∀ {P : Chapter → Prop}, (∀ n, P (index.chapter n)) →
      ∀ chapter ∈ index.chapters, P chapter := by
    intro P hP chapter hchapter
    obtain ⟨n, -, rfl⟩ := List.mem_map.mp hchapter
    exact hP n
  exact
    { ascending := hnumbers ▸ LevelIndex.ascending_numbers index
      numbers := fun n => by rw [hnumbers, LevelIndex.mem_numbers]
      levels_ascending := hchapters fun n =>
        List.pairwise_map.mpr (hordered.ascending.filter _)
      own := hchapters fun n level hlevel => by
        refine LevelIndex.mem_ids.trans ⟨?_, fun hn => ?_⟩
        · rintro ⟨other, hother, hid⟩
          obtain ⟨hmem, hn⟩ := LevelIndex.mem_ofChapter.mp hother
          rw [hordered.eq_of_id hlevel hmem hid.symm]
          exact hn
        · exact ⟨level, LevelIndex.mem_ofChapter.mpr ⟨hlevel, hn⟩, rfl⟩
      once := by
        have hall := (LevelIndex.flatMap_ofChapter_perm (hids.of_map _)).map Level.id
        rw [List.map_flatMap] at hall
        rw [LevelIndex.chapters_eq, List.flatMap_map]
        exact hall
      listed := hchapters fun n => ⟨_, ofChapter_of_index h n, rfl⟩
      others := fun n hn => by
        rw [ofChapter_of_index h]
        exact congrArg Except.ok (List.filter_eq_nil_iff.mpr fun level hlevel => by
          simpa using hn level hlevel) }

/-! ## From level to level -/

/-- Going from level to level, from an id on, until no level follows. -/
inductive Visits (c : Catalog) : Int → List Level → Prop
  | last {id : Int} (h : c.nextAfter (.int id) = .ok none) : Visits c id []
  | next {id : Int} {level : Level} {rest : List Level}
      (h : c.nextAfter (.int id) = .ok (some level)) (hrest : Visits c level.id rest) :
      Visits c id (level :: rest)

theorem nextAfter_of_index (h : c.index = .ok index) (id : Int) :
    c.nextAfter (.int id) = .ok (index.next? id) := by
  rw [nextAfter_int, next_of_index h]

theorem nextAfter_behind {before rest : List Level} {id : Int}
    (h : c.index = .ok (before ++ rest)) (hbefore : ∀ level ∈ before, level.id ≤ id)
    (hrest : ∀ level ∈ rest, id < level.id) : c.nextAfter (.int id) = .ok rest.head? := by
  rw [nextAfter_of_index h, LevelIndex.next?_append hbefore hrest]

/-- Going on from an id comes by all levels behind it. -/
theorem visits_behind {before rest : List Level} {id : Int} (h : c.index = .ok (before ++ rest))
    (hascending : (before ++ rest).Pairwise (·.id < ·.id))
    (hbefore : ∀ level ∈ before, level.id ≤ id) (hrest : ∀ level ∈ rest, id < level.id) :
    c.Visits id rest := by
  induction rest generalizing before id with
  | nil => exact .last (nextAfter_behind h hbefore hrest)
  | cons level rest ih =>
    have hsplit : before ++ level :: rest = (before ++ [level]) ++ rest := by simp
    obtain ⟨-, hbehind, -⟩ := List.pairwise_append.mp hascending
    have hsooner : ∀ other ∈ before ++ [level], other.id ≤ level.id := by
      refine List.forall_mem_append.mpr ⟨fun other hother => ?_, by simp⟩
      have hle := hbefore other hother
      have hlt := hrest level List.mem_cons_self
      omega
    have hlater := (List.pairwise_cons.mp hbehind).1
    refine .next (nextAfter_behind h hbefore hrest) ?_
    rw [hsplit] at h hascending
    exact ih h hascending hsooner hlater

/-- Going on from zero comes by all levels. -/
theorem visits_index (h : c.index = .ok index) (hordered : index.Ordered) : c.Visits 0 index := by
  have hall : c.index = .ok ([] ++ index) := h
  refine visits_behind hall hordered.ascending (List.forall_mem_nil _) fun level hlevel => ?_
  have hpositive := hordered.positive level hlevel
  omega

/-! ## All answers -/

/-- What a catalog answers when its levels are these. -/
structure AnswersFrom (c : Catalog) (index : LevelIndex) : Prop where
  ascending : index.Pairwise (·.id < ·.id)
  found : ∀ level ∈ index, c.find (.int level.id) = .ok level
  lacking : ∀ id, id ∉ index.ids → c.find (.int id) = .error (.noLevel (.int id) c.folder)
  /-- The level that follows any integer has the least id above it. -/
  next : ∀ id level, c.nextAfter (.int id) = .ok (some level) ↔
    level ∈ index ∧ IsLeast (index.above id) level.id
  last : ∀ id, c.nextAfter (.int id) = .ok none ↔ ∀ i ∈ index.ids, i ≤ id
  visits : c.Visits 0 index
  chapters : c.SharesOut index

theorem answersFrom_index (h : c.index = .ok index) (hordered : index.Ordered) :
    c.AnswersFrom index where
  ascending := hordered.ascending
  found := fun level hlevel => by
    rw [find_of_index h, hordered.get?_eq_some.mpr ⟨hlevel, rfl⟩]
  lacking := fun id hid => by
    rw [find_of_index h, LevelIndex.get?_eq_none.mpr hid]
  next := fun id level => by
    rw [nextAfter_of_index h, Except.ok.injEq]
    exact hordered.next?_eq_some
  last := fun id => by
    rw [nextAfter_of_index h, Except.ok.injEq]
    exact LevelIndex.next?_eq_none
  visits := visits_index h hordered
  chapters := sharesOut_index h hordered

/-- Two catalogs have loaded the same levels, if any, and then answer any question alike. The list of
levels and the chapters are read off the index. -/
structure AnswersAlike (c other : Catalog) : Prop where
  index : ∀ index, other.index = .ok index ↔ c.index = .ok index
  find : ∀ index, c.index = .ok index → other.find = c.find
  nextAfter : ∀ index, c.index = .ok index → other.nextAfter = c.nextAfter
  ofChapter : ∀ index, c.index = .ok index → other.ofChapter = c.ofChapter

theorem answersAlike_of_index {other : Catalog}
    (h : ∀ index, other.index = .ok index ↔ c.index = .ok index)
    (hfolder : other.folder = c.folder) : c.AnswersAlike other where
  index := h
  find := fun index hindex => by
    funext key
    simp only [Catalog.find, hindex, (h index).mpr hindex, hfolder]
  nextAfter := fun index hindex => by
    funext key
    simp only [Catalog.nextAfter, hindex, (h index).mpr hindex]
  ofChapter := fun index hindex => by
    funext key
    simp only [Catalog.ofChapter, hindex, (h index).mpr hindex]

/-- What a catalog is, going by the files in its folder. -/
structure ViewsFiles (folder : String) (files : List LevelFile) : Prop where
  /-- It can be loaded exactly if each file that is meant to be played holds a level with an id of
  its own. -/
  loads : (∃ index, Catalog.index ⟨folder, some files, none⟩ = .ok index) ↔
    LevelFile.Loadable files
  /-- It has each of their levels once. -/
  levels : ∀ index, Catalog.index ⟨folder, some files, none⟩ = .ok index →
    index.Perm (LevelFile.levels files)
  answers : ∀ index, Catalog.index ⟨folder, some files, none⟩ = .ok index →
    AnswersFrom ⟨folder, some files, none⟩ index
  /-- It goes on to answer so once it has been asked something. -/
  later : ∀ index, Catalog.index ⟨folder, some files, none⟩ = .ok index →
    AnswersFrom (remember ⟨folder, some files, none⟩) index
  /-- The names of the files do not matter. -/
  renamed : ∀ others, LevelFile.SameContents files others →
    AnswersAlike ⟨folder, some files, none⟩ ⟨folder, some others, none⟩

/-- **A catalog is one view of the levels in its folder**, whatever the files are called. -/
theorem viewsFiles (folder : String) (files : List LevelFile) : ViewsFiles folder files := by
  have hordered : ∀ {index : LevelIndex},
      Catalog.index ⟨folder, some files, none⟩ = .ok index → index.Ordered :=
    fun h => LevelIndex.ordered_readInto LevelIndex.ordered_nil h
  refine
    { loads := ⟨fun ⟨_, h⟩ => (index_eq_ok.mp h).1, exists_index_of_loadable⟩
      levels := fun _ h => (index_eq_ok.mp h).2.1
      answers := fun _ h => answersFrom_index h (hordered h)
      later := fun _ h => answersFrom_index ((index_remember _).trans h) (hordered h)
      renamed := fun others hsame => answersAlike_of_index (fun index => ?_) rfl }
  have hlevels := LevelFile.levels_perm hsame
  rw [index_eq_ok, index_eq_ok, LevelFile.loadable_congr hsame]
  exact and_congr_right fun _ => and_congr_left fun _ =>
    ⟨fun h => h.trans hlevels, fun h => h.trans hlevels.symm⟩

end Catalog

end RobotPuzzle
