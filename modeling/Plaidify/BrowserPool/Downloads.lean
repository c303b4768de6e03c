import Mathlib.Data.List.DropRight
import Plaidify.Lib.FreeNames
import Plaidify.Lib.Runs

/-!
# The downloads of a browser context

`_handle_download` of `BrowserPool` (`src/src/core/browser_pool.py`), one task for
each download. A task picks the path of its file, waits until the file is saved, and
records the path. The path is free when it is picked; it is taken only when the
file is there, so that tasks in between may pick it too.
-/

namespace Plaidify.BrowserPool

namespace Downloads

/-! ## Paths -/

/-- `os.path.basename`. -/
def basename (path : List Char) : List Char :=
  path.rtakeWhile (· ≠ '/')

/-- `os.path.splitext` of a name without a slash: the last dot starts the suffix,
unless only dots are before it. -/
def splitext (name : List Char) : List Char × List Char :=
  let stem := (name.rdropWhile (· ≠ '.')).dropLast
  if stem.all (· == '.') then (name, [])
  else (stem, name.drop stem.length)

/-- `os.path.join` with a name that does not begin with a slash. -/
def join (directory name : List Char) : List Char :=
  if directory = [] ∨ directory.getLast? = some '/' then directory ++ name
  else directory ++ '/' :: name

/-- `os.path.basename(filename) or "download.bin"`. -/
def baseName (filename : List Char) : List Char :=
  if basename filename = [] then "download.bin".toList else basename filename

/-- The names that `_unique_download_path` tries. -/
def candidate (filename : List Char) : Nat → List Char
  | 0 => baseName filename
  | counter + 1 =>
      let (stem, suffix) := splitext (baseName filename)
      stem ++ ('-' :: Nat.toDigits 10 (counter + 1)) ++ suffix

/-- What exists in every directory. -/
def dots (directory : List Char) : List (List Char) :=
  [join directory ".".toList, join directory "..".toList]

/-- `_unique_download_path`; the files that exist are given by their paths. -/
def uniqueDownloadPath (files : List (List Char)) (directory filename : List Char) :
    Option (List Char) :=
  let taken := dots directory ++ files
  FreeNames.probe taken (fun n => join directory (candidate filename n)) (taken.length + 2) 0

/-! ## Tasks -/

/-- A download: what the page suggests for it, and the content of its file. -/
structure Download (γ : Type) where
  url : Option String
  suggestedFilename : Option (List Char)
  content : γ

/-- A run of `_handle_download` behind the choice of its path. -/
structure Task (γ : Type) where
  download : Download γ
  destination : List Char
  /-- The file has come into existence. -/
  saved : Bool

/-- An entry of `pooled.downloads`, with the download that it is about. -/
structure Entry (γ : Type) where
  filename : List Char
  sizeBytes : Nat
  url : Option String
  path : List Char
  download : Download γ

structure State (γ : Type) where
  /-- The files of the directory, the newest content of a path first. -/
  files : List (List Char × γ)
  tasks : List (Task γ)
  downloads : List (Entry γ)

variable {γ : Type}

/-- What is at a path. -/
def State.contentAt (s : State γ) (path : List Char) : Option γ :=
  s.files.lookup path

inductive Label (γ : Type) where
  /-- A download starts; `permitted` is what the policy says at this time. -/
  | started (download : Download γ) (permitted : Bool)
  /-- `save_as` of a task completes. -/
  | saved (task : Nat)
  /-- `save_as` of a task raises. -/
  | saveRaised (task : Nat)
  /-- The task of a saved file goes on; `sized` is false if `getsize` raises. -/
  | resumed (task : Nat) (sized : Bool)

variable (directory : List Char) (size : γ → Nat)

/-- `getattr(download, "suggested_filename", None) or "download.bin"`. -/
def Download.filename (d : Download γ) : List Char :=
  (d.suggestedFilename.filter (· ≠ [])).getD "download.bin".toList

def step (s : State γ) : Label γ → Option (State γ)
  | .started download permitted =>
      if permitted then
        (uniqueDownloadPath (s.files.map (·.1)) directory download.filename).map fun destination =>
          { s with tasks := s.tasks ++ [⟨download, destination, false⟩] }
      else some s
  | .saved i => do
      let task ← s.tasks[i]?
      if task.saved then none
      some { s with
        files := (task.destination, task.download.content) :: s.files
        tasks := s.tasks.set i { task with saved := true } }
  | .saveRaised i => do
      let task ← s.tasks[i]?
      if task.saved then none
      some { s with tasks := s.tasks.eraseIdx i }
  | .resumed i sized => do
      let task ← s.tasks[i]?
      if task.saved then
        let entry : Entry γ :=
          { filename := basename task.destination
            sizeBytes := ((s.contentAt task.destination).map size).getD 0
            url := task.download.url
            path := task.destination
            download := task.download }
        some { s with
          tasks := s.tasks.eraseIdx i
          downloads := if sized then s.downloads ++ [entry] else s.downloads }
      else none

/-! ## The property and the condition -/

/-- The path is that of a file right in the directory. -/
def Inside (path : List Char) : Prop :=
  ∃ name, path = join directory name ∧ name ≠ [] ∧ '/' ∉ name ∧ name ≠ ".".toList ∧
    name ≠ "..".toList

/-- The recorded downloads do not get into each other's way. -/
structure Apart (s : State γ) : Prop where
  distinct : (s.downloads.map (·.path)).Nodup
  inside : ∀ e ∈ s.downloads, Inside directory e.path
  own : ∀ e ∈ s.downloads, s.contentAt e.path = some e.download.content

/-- No download starts whose first free path is already that of a file which is still
being saved. -/
def Unclaimed (s : State γ) : Label γ → Prop
  | .started download true => ∀ path,
      FreeNames.FirstFree (dots directory ++ s.files.map (·.1))
        (fun n => join directory (candidate download.filename n)) path →
      ∀ task ∈ s.tasks, task.saved = false → task.destination ≠ path
  | _ => True

/-! ## The names that are tried -/

theorem join_injective {a b : List Char} (h : join directory a = join directory b) : a = b := by
  unfold join at h
  split at h
  · exact List.append_cancel_left h
  · exact (List.cons.inj (List.append_cancel_left h)).2

/-- The counters make different names. -/
theorem candidate_injective {filename : List Char} {i j : Nat}
    (h : candidate filename (i + 1) = candidate filename (j + 1)) : i = j := by
  have hmiddle := (List.cons.inj (List.append_cancel_left (List.append_cancel_right h))).2
  have hvalue := congrArg (fun digits => Nat.ofDigitChars 10 digits 0) hmiddle
  simp only [Nat.ofDigitChars_toDigits (b := 10) (by decide) (by decide)] at hvalue
  omega

theorem not_mem_basename (path : List Char) : '/' ∉ basename path := by
  intro hmem
  have hne := List.mem_rtakeWhile_imp hmem
  simp at hne

theorem baseName_spec (filename : List Char) :
    baseName filename ≠ [] ∧ '/' ∉ baseName filename := by
  unfold baseName
  split
  · decide
  · rename_i hne
    exact ⟨hne, not_mem_basename filename⟩

/-- Stem and suffix are parts of the name. -/
theorem splitext_append (name : List Char) :
    (splitext name).1 ++ (splitext name).2 = name := by
  have hleading : (name.rdropWhile (· ≠ '.')).dropLast <+: name :=
    List.IsPrefix.trans (List.dropLast_prefix _) (List.rdropWhile_prefix _ _)
  unfold splitext
  dsimp only
  by_cases hdots : (name.rdropWhile (· ≠ '.')).dropLast.all (· == '.') = true
  · rw [if_pos hdots]
    exact List.append_nil name
  · rw [if_neg hdots]
    exact List.prefix_iff_eq_append.mp hleading

theorem candidate_spec (filename : List Char) (n : Nat) :
    candidate filename n ≠ [] ∧ '/' ∉ candidate filename n := by
  cases n with
  | zero => exact baseName_spec filename
  | succ counter =>
      have hparts := splitext_append (baseName filename)
      have hbase := (baseName_spec filename).2
      rw [← hparts, List.mem_append, not_or] at hbase
      show (splitext (baseName filename)).1 ++ ('-' :: Nat.toDigits 10 (counter + 1)) ++
          (splitext (baseName filename)).2 ≠ [] ∧
        '/' ∉ (splitext (baseName filename)).1 ++ ('-' :: Nat.toDigits 10 (counter + 1)) ++
          (splitext (baseName filename)).2
      refine ⟨by simp, ?_⟩
      simp only [List.mem_append, List.mem_cons, not_or]
      refine ⟨⟨hbase.1, by decide, ?_⟩, hbase.2⟩
      intro hdigit
      have hisDigit := Nat.isDigit_of_mem_toDigits (by decide) (by decide) hdigit
      revert hisDigit
      decide

/-- A name is found, and it is the first that is free. -/
theorem uniqueDownloadPath_spec (files : List (List Char)) (filename : List Char) :
    ∃ path, uniqueDownloadPath files directory filename = some path ∧
      FreeNames.FirstFree (dots directory ++ files)
        (fun n => join directory (candidate filename n)) path := by
  have hinj : ∀ i j, join directory (candidate filename (i + 1)) =
      join directory (candidate filename (j + 1)) → i = j :=
    fun i j h => candidate_injective (join_injective directory h)
  have hprobe := @FreeNames.probe_isSome _ _ (dots directory ++ files)
    (fun n => join directory (candidate filename n)) hinj
  rcases hprobe with ⟨path, hpath⟩
  exact ⟨path, hpath, FreeNames.probe_spec (fun k hk => absurd hk (Nat.not_lt_zero k)) hpath⟩

variable {directory} in
theorem inside_of_firstFree {files : List (List Char)} {filename path : List Char}
    (h : FreeNames.FirstFree (dots directory ++ files)
      (fun n => join directory (candidate filename n)) path) :
    Inside directory path ∧ path ∉ files := by
  rcases h with ⟨n, rfl, hfree, -⟩
  rw [List.mem_append, not_or] at hfree
  refine ⟨⟨candidate filename n, rfl, (candidate_spec filename n).1,
    (candidate_spec filename n).2, ?_, ?_⟩, hfree.2⟩
  · intro hdot
    exact hfree.1 (by simp [dots, hdot])
  · intro hdots
    exact hfree.1 (by simp [dots, hdots])

/-! ## What a step does -/

variable {directory size}

/-- The steps, with the list of tasks cut at the task that goes on. -/
inductive Move (s : State γ) : Label γ → State γ → Prop where
  | refused (download : Download γ) : Move s (.started download false) s
  | started {download : Download γ} {path : List Char}
      (h : FreeNames.FirstFree (dots directory ++ s.files.map (·.1))
        (fun n => join directory (candidate download.filename n)) path) :
      Move s (.started download true) { s with tasks := s.tasks ++ [⟨download, path, false⟩] }
  | saved {before after : List (Task γ)} {task : Task γ} (htasks : s.tasks = before ++ task :: after)
      (hsaved : task.saved = false) :
      Move s (.saved before.length)
        { s with
          files := (task.destination, task.download.content) :: s.files
          tasks := before ++ { task with saved := true } :: after }
  | saveRaised {before after : List (Task γ)} {task : Task γ}
      (htasks : s.tasks = before ++ task :: after) :
      Move s (.saveRaised before.length) { s with tasks := before ++ after }
  | dropped {before after : List (Task γ)} {task : Task γ}
      (htasks : s.tasks = before ++ task :: after) :
      Move s (.resumed before.length false) { s with tasks := before ++ after }
  | recorded {before after : List (Task γ)} {task : Task γ} {entry : Entry γ}
      (htasks : s.tasks = before ++ task :: after) (hsaved : task.saved = true)
      (hpath : entry.path = task.destination) (hdownload : entry.download = task.download) :
      Move s (.resumed before.length true)
        { s with tasks := before ++ after, downloads := s.downloads ++ [entry] }

/-- A task of a list, with what is before and after it. -/
theorem exists_split {tasks : List (Task γ)} {i : Nat} {task : Task γ} (h : tasks[i]? = some task) :
    ∃ before after, tasks = before ++ task :: after ∧ before.length = i := by
  rcases List.getElem?_eq_some_iff.mp h with ⟨hlt, heq⟩
  refine ⟨tasks.take i, tasks.drop (i + 1), ?_, List.length_take_of_le (Nat.le_of_lt hlt)⟩
  rw [← heq, ← List.drop_eq_getElem_cons hlt, List.take_append_drop]

theorem move_of_step {s s' : State γ} {l : Label γ} (h : step directory size s l = some s') :
    @Move γ directory s l s' := by
  cases l with
  | started download permitted =>
      unfold step at h
      cases permitted with
      | false =>
          obtain rfl := Option.some.inj h
          exact .refused download
      | true =>
          dsimp only at h
          rw [if_pos rfl] at h
          rcases uniqueDownloadPath_spec directory (s.files.map (·.1)) download.filename with
            ⟨path, hpath, hfree⟩
          rw [hpath] at h
          -- the name is free, for `uniqueDownloadPath` always finds one
          obtain rfl := Option.some.inj h
          exact .started hfree
  | saved i =>
      obtain ⟨task, htask, h⟩ := Option.bind_eq_some_iff.mp h
      -- the task of the label is the one between the two halves
      rcases exists_split htask with ⟨before, after, htasks, rfl⟩
      cases hsaved : task.saved with
      | true =>
          -- a task saves its file once
          rw [if_pos hsaved] at h
          cases h
      | false =>
          rw [if_neg (by simp [hsaved]), htasks] at h
          simp only [List.set_append_right _ _ (Nat.le_refl _), Nat.sub_self, List.set_cons_zero]
            at h
          obtain rfl := Option.some.inj h
          exact .saved htasks hsaved
  | saveRaised i =>
      obtain ⟨task, htask, h⟩ := Option.bind_eq_some_iff.mp h
      rcases exists_split htask with ⟨before, after, htasks, rfl⟩
      cases hsaved : task.saved with
      | true =>
          rw [if_pos hsaved] at h
          cases h
      | false =>
          rw [if_neg (by simp [hsaved]), htasks] at h
          simp only [List.eraseIdx_append_of_length_le (Nat.le_refl _), Nat.sub_self,
            List.eraseIdx_cons_zero] at h
          obtain rfl := Option.some.inj h
          exact .saveRaised htasks
  | resumed i sized =>
      obtain ⟨task, htask, h⟩ := Option.bind_eq_some_iff.mp h
      rcases exists_split htask with ⟨before, after, htasks, rfl⟩
      cases hsaved : task.saved with
      | false =>
          -- `_record_download` goes on only after the file is saved
          rw [if_neg (by simp [hsaved])] at h
          cases h
      | true =>
          rw [if_pos hsaved, htasks] at h
          simp only [List.eraseIdx_append_of_length_le (Nat.le_refl _), Nat.sub_self,
            List.eraseIdx_cons_zero] at h
          obtain rfl := Option.some.inj h
          cases sized with
          | true => exact .recorded htasks hsaved rfl rfl
          | false => exact .dropped htasks

/-! ## The invariant -/

/-- Recorded and pending downloads all have paths of their own. -/
structure Inv (directory : List Char) (s : State γ) : Prop where
  distinct : (s.downloads.map (·.path) ++ s.tasks.map (·.destination)).Nodup
  inside : ∀ e ∈ s.downloads, Inside directory e.path
  insideTask : ∀ t ∈ s.tasks, Inside directory t.destination
  own : ∀ e ∈ s.downloads, s.contentAt e.path = some e.download.content
  ownTask : ∀ t ∈ s.tasks, t.saved = true → s.contentAt t.destination = some t.download.content
  unsaved : ∀ t ∈ s.tasks, t.saved = false → t.destination ∉ s.files.map (·.1)

theorem mem_of_contentAt {s : State γ} {path : List Char} {content : γ}
    (h : s.contentAt path = some content) : path ∈ s.files.map (·.1) := by
  rcases List.lookup_eq_some_iff.mp h with ⟨newer, older, hfiles, -⟩
  rw [hfiles]
  simp

/-- Another file leaves a path alone. -/
theorem contentAt_cons {s : State γ} {path other : List Char} (hne : path ≠ other) (content : γ)
    (tasks : List (Task γ)) (downloads : List (Entry γ)) :
    (State.mk ((other, content) :: s.files) tasks downloads).contentAt path =
      s.contentAt path := by
  unfold State.contentAt
  rw [List.lookup_cons, beq_eq_false_iff_ne.mpr hne]

theorem Inv.apart {s : State γ} (h : Inv directory s) : Apart directory s :=
  ⟨(List.nodup_append.mp h.distinct).1, h.inside, h.own⟩

/-- A task that leaves takes nothing from the others. -/
theorem Inv.leave {s : State γ} {before after : List (Task γ)} {task : Task γ}
    (hs : Inv directory s) (htasks : s.tasks = before ++ task :: after) :
    Inv directory { s with tasks := before ++ after } := by
  have hsub : ∀ t ∈ before ++ after, t ∈ s.tasks := by
    intro t ht
    rw [htasks]
    simp only [List.mem_append, List.mem_cons] at ht ⊢
    tauto
  refine ⟨?_, hs.inside, fun t ht => hs.insideTask t (hsub t ht), hs.own,
    fun t ht => hs.ownTask t (hsub t ht), fun t ht => hs.unsaved t (hsub t ht)⟩
  have hdistinct := hs.distinct
  rw [htasks] at hdistinct
  refine List.Nodup.sublist (List.Sublist.append_left (List.Sublist.map _ ?_) _) hdistinct
  exact List.Sublist.append_left (List.sublist_cons_self task after) before

theorem inv_step {s s' : State γ} {l : Label γ} (hs : Inv directory s)
    (hC : Unclaimed directory s l) (h : step directory size s l = some s') : Inv directory s' := by
  cases move_of_step h with
  | refused download => exact hs
  | @started download path hfree =>
      rcases inside_of_firstFree hfree with ⟨hinside, hfresh⟩
      -- a path that is taken is that of a file, or of a task that has not saved its own yet
      have hnew : path ∉ s.downloads.map (·.path) ++ s.tasks.map (·.destination) := by
        intro hmem
        rcases List.mem_append.mp hmem with hrecorded | hpending
        · rcases List.mem_map.mp hrecorded with ⟨e, he, rfl⟩
          exact hfresh (mem_of_contentAt (hs.own e he))
        · rcases List.mem_map.mp hpending with ⟨t, ht, rfl⟩
          cases hsaved : t.saved with
          | true => exact hfresh (mem_of_contentAt (hs.ownTask t ht hsaved))
          | false => exact hC t.destination hfree t ht hsaved rfl
      have hcases : ∀ t ∈ s.tasks ++ [⟨download, path, false⟩],
          t ∈ s.tasks ∨ t = ⟨download, path, false⟩ := by
        intro t ht
        simpa using ht
      refine ⟨?_, hs.inside, ?_, hs.own, ?_, ?_⟩
      · -- distinct
        show (s.downloads.map (·.path) ++ (s.tasks ++ [_]).map Task.destination).Nodup
        rw [List.map_append, ← List.append_assoc, List.map_singleton, ← List.concat_eq_append]
        exact hs.distinct.concat hnew
      · -- insideTask
        intro t ht
        rcases hcases t ht with ht | rfl
        · exact hs.insideTask t ht
        · exact hinside
      · -- ownTask: the new task has saved nothing
        intro t ht hsaved
        rcases hcases t ht with ht | rfl
        · exact hs.ownTask t ht hsaved
        · cases hsaved
      · -- unsaved
        intro t ht hsaved
        rcases hcases t ht with ht | rfl
        · exact hs.unsaved t ht hsaved
        · exact hfresh
  | @saved before after task htasks hsaved =>
      have htask : task ∈ s.tasks := htasks ▸ List.mem_append_right _ List.mem_cons_self
      have hfree := hs.unsaved task htask hsaved
      have hdistinct := hs.distinct
      rw [htasks, List.map_append, List.map_cons] at hdistinct
      -- the other paths are others
      have hother : ∀ t ∈ before ++ after, t.destination ≠ task.destination := by
        have htaskPaths := (List.nodup_append.mp hdistinct).2.1
        have hmiddle := (List.nodup_middle.mp htaskPaths)
        intro t ht heq
        apply (List.nodup_cons.mp hmiddle).1
        rw [← List.map_append]
        exact List.mem_map.mpr ⟨t, ht, heq⟩
      have hcases : ∀ t ∈ before ++ { task with saved := true } :: after,
          t = { task with saved := true } ∨ (t ∈ before ++ after ∧ t ∈ s.tasks) := by
        intro t ht
        rw [htasks]
        simp only [List.mem_append, List.mem_cons] at ht ⊢
        tauto
      refine ⟨?_, hs.inside, ?_, ?_, ?_, ?_⟩
      · -- distinct: no path has changed
        show (s.downloads.map (·.path) ++ (before ++ _ :: after).map (·.destination)).Nodup
        rw [List.map_append, List.map_cons]
        exact hdistinct
      · -- insideTask
        intro t ht
        rcases hcases t ht with rfl | ⟨-, ht⟩
        · exact hs.insideTask task htask
        · exact hs.insideTask t ht
      · -- own: the file saved is not one of those recorded
        intro e he
        have hne : e.path ≠ task.destination := by
          intro heq
          exact hfree (heq ▸ mem_of_contentAt (hs.own e he))
        rw [contentAt_cons hne]
        exact hs.own e he
      · -- ownTask: the file saved is the task's own
        intro t ht htsaved
        rcases hcases t ht with rfl | ⟨hmem, ht⟩
        · simp [State.contentAt]
        · rw [contentAt_cons (hother t hmem)]
          exact hs.ownTask t ht htsaved
      · -- unsaved
        intro t ht htsaved
        rcases hcases t ht with rfl | ⟨hmem, ht⟩
        · cases htsaved
        · rw [List.map_cons, List.mem_cons, not_or]
          exact ⟨hother t hmem, hs.unsaved t ht htsaved⟩
  | saveRaised htasks => exact hs.leave htasks
  | dropped htasks => exact hs.leave htasks
  | @recorded before after task entry htasks hsaved hpath hdownload =>
      have htask : task ∈ s.tasks := htasks ▸ List.mem_append_right _ List.mem_cons_self
      have hleft := hs.leave htasks
      have hcases : ∀ e ∈ s.downloads ++ [entry], e ∈ s.downloads ∨ e = entry := by
        intro e he
        simpa using he
      refine ⟨?_, ?_, hleft.insideTask, ?_, hleft.ownTask, hleft.unsaved⟩
      · -- distinct: a path moves from the tasks to the records
        have hdistinct := hs.distinct
        rw [htasks, List.map_append, List.map_cons] at hdistinct
        show ((s.downloads ++ [entry]).map (·.path) ++ (before ++ after).map (·.destination)).Nodup
        rw [List.map_append, List.map_singleton, hpath, List.append_assoc, List.map_append,
          List.singleton_append]
        exact (List.Perm.append_left _ List.perm_middle).nodup_iff.mp hdistinct
      · -- inside
        intro e he
        rcases hcases e he with he | rfl
        · exact hs.inside e he
        · rw [hpath]
          exact hs.insideTask task htask
      · -- own
        intro e he
        rcases hcases e he with he | rfl
        · exact hs.own e he
        · rw [hpath, hdownload]
          exact hs.ownTask task htask hsaved

/-! ## Runs -/

/-- Before the first download; the directory may hold files. -/
def Start (s : State γ) : Prop := s.tasks = [] ∧ s.downloads = []

theorem inv_of_start {s : State γ} (h : Start s) : Inv directory s := by
  rcases h with ⟨htasks, hdownloads⟩
  constructor <;> simp [htasks, hdownloads]

/-- Where no download picks a path that another one is saving to, the downloads stay
apart in every state of every run. -/
theorem apart_of_unclaimed {s : State γ} {tr : List (Label γ)} (hs : Start s)
    (hC : Runs.Along (step directory size) (Unclaimed directory) s tr) :
    ∀ before after t, tr = before ++ after →
      Runs.exec (step directory size) s before = some t → Apart directory t := by
  intro before after t htr ht
  have hinv := Runs.always_of_along (I := Inv directory) (fun s l t => inv_step) (inv_of_start hs)
    hC before after t htr ht
  exact hinv.apart

/-- A file can be saved and recorded at once. -/
theorem exec_save {s : State γ} {before after : List (Task γ)} {task : Task γ}
    (htasks : s.tasks = before ++ task :: after) (hsaved : task.saved = false) :
    ∃ tr entry files, entry.path = task.destination ∧ Runs.exec (step directory size) s tr =
      some ⟨files, before ++ after, s.downloads ++ [entry]⟩ := by
  refine ⟨[.saved before.length, .resumed before.length true],
    ⟨basename task.destination, size task.download.content, task.download.url,
      task.destination, task.download⟩,
    (task.destination, task.download.content) :: s.files, rfl, ?_⟩
  simp [Runs.exec, step, htasks, hsaved, State.contentAt,
    List.eraseIdx_append_of_length_le (Nat.le_refl _)]

/-- The condition leaves nothing out: where it fails, both files can be saved to the
one path. -/
theorem clobbers_of_claimed {s : State γ} {download : Download γ}
    (h : ¬Unclaimed directory s (.started download true)) :
    ∃ tr u, Runs.exec (step directory size) s (.started download true :: tr) = some u ∧
      ¬Apart directory u := by
  simp only [Unclaimed, not_forall, not_not] at h
  rcases h with ⟨path, hfree, task, htask, hsaved, hpath⟩
  rcases List.append_of_mem htask with ⟨before, after, htasks⟩
  rcases uniqueDownloadPath_spec directory (s.files.map (·.1)) download.filename with
    ⟨path', hunique, hfree'⟩
  obtain rfl := FreeNames.firstFree_unique hfree hfree'
  have hstarted : step directory size s (.started download true) =
      some { s with tasks := before ++ task :: (after ++ [⟨download, path, false⟩]) } := by
    simp [step, hunique, htasks]
  -- the first file is saved and recorded, and then the second
  have hfirst := @exec_save γ directory size
    { s with tasks := before ++ task :: (after ++ [⟨download, path, false⟩]) } before _ task rfl
    hsaved
  rcases hfirst with ⟨first, entry, files, hentry, hfirst⟩
  have hsecond := @exec_save γ directory size
    ⟨files, before ++ (after ++ [⟨download, path, false⟩]), s.downloads ++ [entry]⟩
    (before ++ after) [] ⟨download, path, false⟩ (by simp) rfl
  rcases hsecond with ⟨second, entry', files', hentry', hsecond⟩
  refine ⟨first ++ second, _, Runs.exec_cons.mpr
    ⟨_, hstarted, Runs.exec_append.mpr ⟨_, hfirst, hsecond⟩⟩, ?_⟩
  intro hapart
  have hdistinct : ((s.downloads ++ [entry]) ++ [entry']).map (·.path) |>.Nodup := hapart.distinct
  rw [List.map_append, List.nodup_append] at hdistinct
  have hsame : entry.path = entry'.path := by rw [hentry, hentry', hpath]
  exact hdistinct.2.2 entry.path (by simp) entry'.path (by simp) hsame

/-- An empty directory. -/
def empty : State String := ⟨[], [], []⟩

def statement : Download String := ⟨none, some "report.pdf".toList, "statement"⟩

def invoice : Download String := ⟨none, some "report.pdf".toList, "invoice"⟩

/-- The second download starts when the first file is there, although its task has
not gone on yet. -/
def sequential : List (Label String) :=
  [.started statement true, .saved 0, .started invoice true, .saved 1, .resumed 0 true,
    .resumed 0 true]

theorem sequential_apart :
    ∃ t, Runs.exec (step "/tmp/d".toList String.length) empty sequential = some t ∧
      Apart "/tmp/d".toList t := by
  have hC : Runs.Along (step "/tmp/d".toList String.length) (Unclaimed "/tmp/d".toList) empty
      sequential := by
    refine (Runs.along_cons rfl).mpr ⟨?_, (Runs.along_cons rfl).mpr ⟨trivial,
      (Runs.along_cons rfl).mpr ⟨?_, (Runs.along_cons rfl).mpr ⟨trivial,
      (Runs.along_cons rfl).mpr ⟨trivial, (Runs.along_cons rfl).mpr ⟨trivial, trivial⟩⟩⟩⟩⟩⟩
    · intro path _ task htask
      exact absurd htask List.not_mem_nil
    · intro path _ task htask hsaved
      obtain rfl := List.mem_singleton.mp htask
      cases hsaved
  have hrun : ∃ t, Runs.exec (step "/tmp/d".toList String.length) empty sequential = some t :=
    ⟨_, rfl⟩
  rcases hrun with ⟨t, ht⟩
  exact ⟨t, ht, apart_of_unclaimed ⟨rfl, rfl⟩ hC sequential [] t (List.append_nil _).symm ht⟩

/-- Two downloads of one name, both started before either is saved. -/
theorem concurrent_not_apart :
    ∃ t, Runs.exec (step "/tmp/d".toList String.length) empty
        [.started statement true, .started invoice true, .saved 0, .saved 1, .resumed 0 true,
          .resumed 0 true] = some t ∧ ¬Apart "/tmp/d".toList t := by
  refine ⟨_, rfl, ?_⟩
  intro hapart
  have hdistinct := hapart.distinct
  revert hdistinct
  decide

end Downloads

end Plaidify.BrowserPool
