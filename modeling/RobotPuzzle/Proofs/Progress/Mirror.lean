import Mathlib.Data.List.Nodup
import RobotPuzzle.Proofs.Progress.Summary

/-!
# Both kinds of store answer alike

A folder mirrors a ledger if it has a file for each record of the ledger and no other. Saving a
record keeps the mirror, so a store in a folder that is empty at first and one in memory give the
same answers to whatever they are asked.

* `Folder.all_of_map`: what is listed from the files of records.
* `Folder.mirrors_save`: saving keeps the mirror.
* `Store.answer_alike`: one call.
* `Store.answers_eq_of_empty`: all calls.
-/

namespace RobotPuzzle

namespace Progress

/-- The records for other levels. -/
def others (id : Int) (records : List Progress) : List Progress :=
  records.filter (·.levelId ≠ id)

variable {id : Int} {q : Progress} {rest : List Progress}

theorem others_cons_of_eq (h : q.levelId = id) : others id (q :: rest) = others id rest := by
  simp [others, h]

theorem others_cons_of_ne (h : q.levelId ≠ id) : others id (q :: rest) = q :: others id rest := by
  simp [others, h]

theorem others_eq_self (h : ∀ r ∈ rest, r.levelId ≠ id) : others id rest = rest :=
  List.filter_eq_self.mpr fun r hr => decide_eq_true (h r hr)

end Progress

namespace Ledger

/-- Records in ascending order, no two of them for the same level. -/
def Ascending (entries : List Progress) : Prop := entries.Pairwise (·.levelId < ·.levelId)

variable {p q : Progress} {entries : List Progress}

theorem Ascending.nodup (h : Ascending entries) : (entries.map Progress.levelId).Nodup :=
  List.pairwise_map.mpr (h.imp fun hlt => by omega)

/-- A record takes the place of the one for its level, if there is one. -/
theorem insert_perm (h : Ascending entries) :
    (insert p entries).Perm (p :: Progress.others p.levelId entries) := by
  induction entries with
  | nil => exact List.Perm.refl _
  | cons q rest ih =>
    obtain ⟨hq, hrest⟩ := List.pairwise_cons.mp h
    unfold insert
    split
    · next hlt =>
      rw [Progress.others_eq_self]
      intro r hr
      rcases List.mem_cons.mp hr with rfl | hr
      · omega
      · have := hq r hr
        omega
    · split
      · next heq =>
        rw [Progress.others_cons_of_eq heq.symm, Progress.others_eq_self]
        intro r hr
        have := hq r hr
        omega
      · next hne =>
        rw [Progress.others_cons_of_ne (Ne.symm hne)]
        exact ((ih hrest).cons q).trans (List.Perm.swap p q _)

theorem mem_of_mem_insert (h : Ascending entries) (hq : q ∈ insert p entries) :
    q = p ∨ q ∈ entries := by
  rcases List.mem_cons.mp ((insert_perm h).mem_iff.mp hq) with rfl | hmem
  · exact .inl rfl
  · exact .inr (List.mem_filter.mp hmem).1

theorem ascending_insert_self (h : Ascending entries) : Ascending (insert p entries) := by
  induction entries with
  | nil => exact List.pairwise_singleton _ _
  | cons q rest ih =>
    obtain ⟨hq, hrest⟩ := List.pairwise_cons.mp h
    unfold insert
    split
    · next hlt =>
      refine List.pairwise_cons.mpr ⟨fun r hr => ?_, h⟩
      rcases List.mem_cons.mp hr with rfl | hr
      · exact hlt
      · exact Int.lt_trans hlt (hq r hr)
    · split
      · next heq => exact List.pairwise_cons.mpr ⟨fun r hr => heq ▸ hq r hr, hrest⟩
      · next hle hne =>
        refine List.pairwise_cons.mpr ⟨fun r hr => ?_, ih hrest⟩
        rcases mem_of_mem_insert hrest hr with rfl | hr
        · omega
        · exact hq r hr

/-- What is found under an id. -/
theorem get?_eq_some (h : Ascending entries) {id : Int} :
    get? ⟨entries⟩ id = some p ↔ p ∈ entries ∧ p.levelId = id := by
  constructor
  · intro hp
    exact ⟨List.mem_of_find?_eq_some hp, by simpa using List.find?_some hp⟩
  · rintro ⟨hmem, rfl⟩
    obtain ⟨q, hq⟩ : ∃ q, get? ⟨entries⟩ p.levelId = some q :=
      Option.isSome_iff_exists.mp (List.find?_isSome.mpr ⟨p, hmem, by simp⟩)
    have hid : q.levelId = p.levelId := by simpa using List.find?_some hq
    rw [hq, List.inj_on_of_nodup_map h.nodup (List.mem_of_find?_eq_some hq) hmem hid]

end Ledger

namespace Folder

/-! ## The files of records -/

/-- The file that a record is written to. -/
def file (p : Progress) : String × String := (fileName p.levelId, write p)

variable {p : Progress} {ps : List Progress}

/-- The listing finds the file of each level. -/
theorem isProgressFile_fileName (id : Int) : isProgressFile (fileName id) = true := by
  have hlist : (fileName id).toList =
      "level_".toList ++ ((Numeral.padded 3 id).toList ++ ".json".toList) := by
    simp only [fileName, String.toList_append, List.append_assoc]
  rw [isProgressFile, Bool.and_eq_true]
  constructor
  · rw [String.startsWith_string_iff, hlist]
    exact List.prefix_append _ _
  · rw [String.endsWith_eq_endsWith_toSlice, String.Slice.endsWith_string_iff, String.copy_toSlice,
      hlist, ← List.append_assoc]
    exact List.suffix_append _ _

/-- Writing a record replaces the file for its level, or adds one. -/
theorem exists_putFile (p : Progress) (hd : (ps.map Progress.levelId).Nodup) :
    ∃ ps' : List Progress,
      putFile (fileName p.levelId) (write p) (ps.map file) = ps'.map file ∧
        ps'.Perm (p :: Progress.others p.levelId ps) := by
  induction ps with
  | nil => exact ⟨[p], rfl, List.Perm.refl _⟩
  | cons q rest ih =>
    obtain ⟨hq, hrest⟩ := List.nodup_cons.mp hd
    by_cases hid : q.levelId = p.levelId
    · refine ⟨p :: rest, ?_, ?_⟩
      · simp [putFile, file, hid]
      · rw [Progress.others_cons_of_eq hid, Progress.others_eq_self]
        exact fun r hr he => hq ((hid.trans he.symm) ▸ List.mem_map_of_mem hr)
    · obtain ⟨ps', hput, hperm⟩ := ih hrest
      have hname : fileName q.levelId ≠ fileName p.levelId := fun he => hid (fileName_injective he)
      refine ⟨q :: ps', ?_, ?_⟩
      · simp [putFile, file, hname, ← hput]
      · rw [Progress.others_cons_of_ne hid]
        exact (hperm.cons q).trans (List.Perm.swap p q _)

theorem mapM_read (hv : ∀ p ∈ ps, p.Valid) :
    (ps.map file).mapM (fun f => read f.2) = .ok ps := by
  induction ps with
  | nil => rfl
  | cons p rest ih =>
    rw [List.map_cons, List.mapM_cons, ih fun q hq => hv q (List.mem_cons_of_mem p hq)]
    simp only [file, read_write (hv p List.mem_cons_self)]
    rfl

/-- The records in the files are listed in ascending order. -/
theorem all_of_map {f : Folder} {entries : List Progress} (hf : f.files.getD [] = ps.map file)
    (hperm : ps.Perm entries) (hv : ∀ p ∈ entries, p.Valid) (ha : Ledger.Ascending entries) :
    f.all = .ok entries := by
  have hall : (ps.map file).filter (fun g => isProgressFile g.1) = ps.map file := by
    refine List.filter_eq_self.mpr fun g hg => ?_
    obtain ⟨p, -, rfl⟩ := List.mem_map.mp hg
    exact isProgressFile_fileName p.levelId
  have hsorted : ps.mergeSort (fun p q => p.levelId ≤ q.levelId) = entries := by
    have hmerged := (List.mergeSort_perm ps fun p q => p.levelId ≤ q.levelId).trans hperm
    have hascending : entries.Pairwise fun p q => decide (p.levelId ≤ q.levelId) = true :=
      ha.imp fun hlt => decide_eq_true (Int.le_of_lt hlt)
    refine List.Perm.eq_of_pairwise (fun p q hp hq hpq hqp => ?_)
      (List.pairwise_mergeSort (fun p q r => ?_) (fun p q => ?_) ps) hascending hmerged
    · simp only [decide_eq_true_eq] at hpq hqp
      exact List.inj_on_of_nodup_map ha.nodup (hmerged.mem_iff.mp hp) hq (by omega)
    · simp only [decide_eq_true_eq]
      omega
    · simp only [Bool.or_eq_true, decide_eq_true_eq]
      omega
  unfold all
  simp only [hf, hall, mapM_read fun p hp => hv p (hperm.mem_iff.mp hp), bind, Except.bind,
    hsorted]
  rfl

/-! ## The mirror -/

/-- A folder mirrors a ledger: it has a file for each of its records and no other. -/
structure Mirrors (f : Folder) (l : Ledger) : Prop where
  files : ∃ ps : List Progress, f.files.getD [] = ps.map file ∧ ps.Perm l.entries
  shows : (Store.files f).Shows l.get?
  ascending : Ledger.Ascending l.entries
  valid : ∀ p ∈ l.entries, p.Valid

/-- An empty folder mirrors an empty ledger. -/
theorem mirrors_empty {f : Folder} (h : f.files.getD [] = []) : f.Mirrors .empty where
  files := ⟨[], h, List.Perm.nil⟩
  shows id := by
    show f.get id = _
    rw [get, text?, h]
    rfl
  ascending := List.Pairwise.nil
  valid _ hp := absurd hp List.not_mem_nil

/-- Saving a record keeps the mirror. -/
theorem mirrors_save {f : Folder} {l : Ledger} (h : f.Mirrors l) (hp : p.Valid) :
    (f.save p).Mirrors (l.save p) := by
  obtain ⟨ps, hfiles, hperm⟩ := h.files
  have hnodup : (ps.map Progress.levelId).Nodup :=
    (hperm.map Progress.levelId).nodup_iff.mpr h.ascending.nodup
  have hmemory : (Store.memory l).Shows l.get? := fun _ => rfl
  constructor
  · obtain ⟨ps', hput, hperm'⟩ := exists_putFile p hnodup
    refine ⟨ps', ?_, hperm'.trans (((hperm.filter _).cons p).trans ?_)⟩
    · rw [← hput, ← hfiles]
      rfl
    · exact (Ledger.insert_perm h.ascending).symm
  · intro id
    have hsame : (Store.memory (l.save p)).get id = .ok (Records.save l.get? p id) :=
      Store.shows_save hmemory hp id
    exact (Store.shows_save h.shows hp id).trans hsame.symm
  · exact Ledger.ascending_insert_self h.ascending
  · intro q hq
    rcases Ledger.mem_of_mem_insert h.ascending hq with rfl | hq
    · exact hp
    · exact h.valid q hq

end Folder

namespace Store

/-- A store in a folder is like one in memory. -/
inductive Alike : Store → Store → Prop where
  | of {f : Folder} {l : Ledger} (h : f.Mirrors l) : Alike (.files f) (.memory l)

variable {st st' : Store}

theorem Alike.shows (h : Alike st st') : ∃ r : Records, r.Valid ∧ st.Shows r ∧ st'.Shows r := by
  obtain ⟨h⟩ := h
  exact ⟨_, Ledger.valid_get? h.valid, h.shows, fun _ => rfl⟩

theorem Alike.get (h : Alike st st') (id : Int) : st.get id = st'.get id := by
  obtain ⟨r, -, hs, hs'⟩ := h.shows
  rw [hs, hs']

theorem Alike.all (h : Alike st st') : st.all = st'.all := by
  obtain ⟨h⟩ := h
  obtain ⟨ps, hfiles, hperm⟩ := h.files
  exact Folder.all_of_map hfiles hperm h.valid h.ascending

theorem Alike.save (h : Alike st st') {p : Progress} (hp : p.Valid) :
    Alike (st.save p) (st'.save p) := by
  obtain ⟨h⟩ := h
  exact ⟨Folder.mirrors_save h hp⟩

theorem Alike.unlock (h : Alike st st') (id : Int) :
    ∃ u u', st.unlock id = .ok u ∧ st'.unlock id = .ok u' ∧ Alike u u' := by
  obtain ⟨r, hr, hs, hs'⟩ := h.shows
  simp only [Store.unlock, hs id, hs' id, bind, Except.bind]
  cases hp : r id with
  | none => exact ⟨_, _, rfl, rfl, h.save (Records.valid_opened id)⟩
  | some p =>
    cases hu : p.unlocked with
    | true =>
      simp only [hu, ↓reduceIte]
      exact ⟨_, _, rfl, rfl, h⟩
    | false =>
      have hv := hr.record id p hp
      simp only [hu, Bool.false_eq_true, ↓reduceIte]
      exact ⟨_, _, rfl, rfl, h.save ⟨hv.zero_le_stars, hv.stars_le_three⟩⟩

theorem Alike.record (h : Alike st st') {o : Outcome} (ho : o.Rated) (next : Option Int) :
    (st.record o next).1 = (st'.record o next).1 ∧
      Alike (st.record o next).2 (st'.record o next).2 := by
  obtain ⟨r, hr, hs, hs'⟩ := h.shows
  have hsaved := h.save (Records.valid_mergeInto hr ho)
  unfold Store.record recordThen
  rw [hs o.levelId, hs' o.levelId]
  cases o.completed with
  | false => exact ⟨rfl, hsaved⟩
  | true =>
    obtain ⟨u, u', hu, hu', halike⟩ := hsaved.unlock (next.getD (o.levelId + 1))
    simp only [↓reduceIte, hu, hu', true_and]
    exact halike

/-! ## Calls -/

/-- What a store can be asked. -/
inductive Call where
  | save (p : Progress)
  | record (o : Outcome) (next : Option Int)
  | get (id : Int)
  | all
  | isUnlocked (id : Int)
  | totalStars

/-- What a store answers. -/
inductive Reply where
  | done
  | updated (p : Progress)
  | found (p : Option Progress)
  | listed (ps : List Progress)
  | told (yes : Bool)
  | counted (stars : Int)

/-- Whether what a call brings is as records and outcomes are. -/
def Call.Fits : Call → Prop
  | .save p => p.Valid
  | .record o _ => o.Rated
  | .get _ | .all | .isUnlocked _ | .totalStars => True

/-- The answer of a store to a call, and the store after it. -/
def answer (st : Store) : Call → Except Fault Reply × Store
  | .save p => (.ok .done, st.save p)
  | .record o next => ((st.record o next).1.map .updated, (st.record o next).2)
  | .get id => ((st.get id).map .found, st)
  | .all => (st.all.map .listed, st)
  | .isUnlocked id => ((st.isUnlocked id).map .told, st)
  | .totalStars => (st.totalStars.map .counted, st)

/-- The answers of a store to calls, one after the other. -/
def answers (st : Store) : List Call → List (Except Fault Reply)
  | [] => []
  | c :: rest => (st.answer c).1 :: (st.answer c).2.answers rest

/-- The store after calls. -/
def after (st : Store) (calls : List Call) : Store :=
  calls.foldl (fun st c => (st.answer c).2) st

/-- One call: the answers are the same, and the stores stay alike. -/
theorem answer_alike (h : Alike st st') {c : Call} (hc : c.Fits) :
    (st.answer c).1 = (st'.answer c).1 ∧ Alike (st.answer c).2 (st'.answer c).2 := by
  cases c with
  | save p => exact ⟨rfl, h.save hc⟩
  | record o next =>
    obtain ⟨hanswer, halike⟩ := h.record hc next
    exact ⟨congrArg (Except.map Reply.updated) hanswer, halike⟩
  | get id => exact ⟨congrArg (Except.map Reply.found) (h.get id), h⟩
  | all => exact ⟨congrArg (Except.map Reply.listed) h.all, h⟩
  | isUnlocked id =>
    have hsame : st.isUnlocked id = st'.isUnlocked id := by
      simp only [isUnlocked, h.get]
    exact ⟨congrArg (Except.map Reply.told) hsame, h⟩
  | totalStars =>
    have hsame : st.totalStars = st'.totalStars := by
      simp only [totalStars, h.all]
    exact ⟨congrArg (Except.map Reply.counted) hsame, h⟩

theorem answers_alike (h : Alike st st') {calls : List Call} (hc : ∀ c ∈ calls, c.Fits) :
    st.answers calls = st'.answers calls ∧ Alike (st.after calls) (st'.after calls) := by
  induction calls generalizing st st' with
  | nil => exact ⟨rfl, h⟩
  | cons c rest ih =>
    obtain ⟨hanswer, halike⟩ := answer_alike h (hc c List.mem_cons_self)
    obtain ⟨hanswers, hafter⟩ := ih halike fun c' hc' => hc c' (List.mem_cons_of_mem c hc')
    exact ⟨List.cons_eq_cons.mpr ⟨hanswer, hanswers⟩, hafter⟩

/-- What is listed: each record that is found, once, in ascending order of ids. -/
theorem Alike.lists (h : Alike st st') :
    ∃ ps, st.all = .ok ps ∧ ps.Pairwise (·.levelId < ·.levelId) ∧
      ∀ id p, st.get id = .ok (some p) ↔ p ∈ ps ∧ p.levelId = id := by
  have hall := h.all
  obtain ⟨h⟩ := h
  refine ⟨_, hall, h.ascending, fun id p => ?_⟩
  rw [h.shows id, Except.ok.injEq]
  exact Ledger.get?_eq_some h.ascending

/-- **Both kinds of store answer alike.** A store in a folder that is empty at first, or does not
exist yet, answers as one in memory does. It reads each record back as it was written, keeps the
records of different levels in different files, and lists each record once, in ascending order. -/
theorem answers_eq_of_empty {folder : Folder} (hempty : folder.files.getD [] = [])
    {calls : List Call} (hc : ∀ c ∈ calls, c.Fits) :
    let files := Store.files folder
    files.answers calls = (Store.memory .empty).answers calls ∧
      (∀ p : Progress, p.Valid → Folder.read (Folder.write p) = .ok p) ∧
      (∀ m n, Folder.fileName m = Folder.fileName n → m = n) ∧
      ∃ ps, (files.after calls).all = .ok ps ∧ ps.Pairwise (·.levelId < ·.levelId) ∧
        ∀ id p, (files.after calls).get id = .ok (some p) ↔ p ∈ ps ∧ p.levelId = id := by
  intro files
  have halike : Alike files (.memory .empty) := ⟨Folder.mirrors_empty hempty⟩
  obtain ⟨hanswers, hafter⟩ := answers_alike halike hc
  exact ⟨hanswers, fun p hp => Folder.read_write hp, fun m n h => Folder.fileName_injective h,
    hafter.lists⟩

end Store

/-! ## A sample -/

/-- A record below zero is saved, and the level after the one that is completed opens. -/
def errands : List Store.Call :=
  [.save ⟨-5, false, 2, none, some 7, 1, false⟩, .record (outcomeOf 1000 true 3 4 90) none, .all,
    .get (-5), .isUnlocked (-4), .isUnlocked 1001, .isUnlocked 1002, .totalStars]

/-- What a store in a folder that does not exist yet answers. -/
theorem answers_errands :
    let second : Progress := ⟨-5, false, 2, none, some 7, 1, false⟩
    let played : Progress := ⟨1000, true, 3, some 4, some 90, 1, true⟩
    let files := Store.files .absent
    files.answers errands =
      [.ok .done, .ok (.updated played), .ok (.listed [second, played, .opened 1001]),
        .ok (.found (some second)), .ok (.told true), .ok (.told true), .ok (.told false),
        .ok (.counted 5)] ∧
      ∃ ps, (files.after errands).all = .ok ps ∧ ps.Pairwise (·.levelId < ·.levelId) := by
  intro second played files
  have hfits : ∀ c ∈ errands, c.Fits := by
    simp only [errands, List.forall_mem_cons, Store.Call.Fits, List.not_mem_nil, false_implies,
      implies_true, and_true]
    exact ⟨⟨by decide, by decide⟩, by decide, by decide⟩
  have hempty : Folder.absent.files.getD [] = [] := rfl
  obtain ⟨hanswers, -, -, ps, hall, hascending, -⟩ := Store.answers_eq_of_empty hempty hfits
  exact ⟨hanswers.trans rfl, ps, hall, hascending⟩

end RobotPuzzle
