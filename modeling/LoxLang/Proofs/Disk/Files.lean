import LoxLang.Disk

/-! Writing a file: it is found where it was written, and nothing else on the disk changes. -/

namespace LoxLang

/-- The place of a target that a file can be written to. -/
def Target.place? : Target → Option Location
  | file place _ | absent place => some place
  | directory | failed _ => none

namespace Disk

/-- Whether a disk differs from another in one file only, which has the given contents. -/
def Gains (before : Disk) (place : Location) (contents : ByteArray) (after : Disk) : Prop :=
  after.get? place = some (.file contents) ∧ ∀ other, other ≠ place →
    after.get? other = before.get? other

/-- What is put at a place stands there. -/
theorem get?_put_self (disk : Disk) {place : Location} (below : place ≠ []) (entry : Entry) :
    (disk.put place entry).get? place = some entry := by
  simp [get?, put, below]

/-- What is put at a place leaves the others as they are. -/
theorem get?_put_of_ne (disk : Disk) {place other : Location} (differs : other ≠ place)
    (entry : Entry) :
    (disk.put place entry).get? other = disk.get? other := by
  -- Entries for other places are neither removed nor hidden.
  have kept (entries : List (Location × Entry)) :
      List.lookup other (entries.filter fun pair => pair.1 ≠ place) = entries.lookup other := by
    induction entries with
    | nil => rfl
    | cons first rest ih => grind
  have unlike : (other == place) = false := by simpa using differs
  unfold get? put
  rw [List.lookup_cons, unlike]
  simp only [kept]

/-- Putting a file at a place below the root changes that place only. -/
theorem gains_put (disk : Disk) {place : Location} (below : place ≠ []) (contents : ByteArray) :
    disk.Gains place contents (disk.put place (.file contents)) :=
  ⟨disk.get?_put_self below _, fun _ differs => disk.get?_put_of_ne differs _⟩

/-- One step along a name, by what stands there. -/
theorem follow_cons (disk : Disk) (start : Location) {name : String} (down : name ≠ "..")
    (rest : List String) :
    disk.follow start (name :: rest) =
      match disk.get? (start ++ [name]) with
      | some .directory => disk.follow (start ++ [name]) rest
      | some (.file contents) => if rest.isEmpty then .file (start ++ [name]) contents
        else .failed .notDirectory
      | none => if rest.isEmpty then .absent (start ++ [name]) else .failed .notFound := by
  rw [follow]
  exact if_neg down

/-- One step up. -/
theorem follow_up (disk : Disk) (start : Location) (rest : List String) :
    disk.follow start (".." :: rest) = disk.follow start.dropLast rest := by
  rw [follow, if_pos rfl]

/-- A directory lets the names behind it lead on. -/
theorem follow_directory {disk : Disk} {start : Location} {name : String} (down : name ≠ "..")
    (isDirectory : disk.get? (start ++ [name]) = some .directory) (rest : List String) :
    disk.follow start (name :: rest) = disk.follow (start ++ [name]) rest := by
  rw [follow_cons disk start down rest, isDirectory]

/-- Where no directory stands, only the last name leads to a place, which is the one
that it names. -/
theorem last_of_place {disk : Disk} {start place : Location} {name : String} {rest : List String}
    (down : name ≠ "..") (noDirectory : disk.get? (start ++ [name]) ≠ some .directory)
    (leads : (disk.follow start (name :: rest)).place? = some place) :
    rest = [] ∧ start ++ [name] = place := by
  rw [follow_cons disk start down rest] at leads
  -- A file or nothing stands there, and both end the way.
  cases found : disk.get? (start ++ [name]) with
  | none =>
    cases rest with
    | nil => exact ⟨rfl, Option.some.inj (by simpa [found, Target.place?] using leads)⟩
    | cons => simp [found, Target.place?] at leads
  | some entry =>
    cases entry with
    | directory => exact absurd found noDirectory
    | file contents =>
      cases rest with
      | nil => exact ⟨rfl, Option.some.inj (by simpa [found, Target.place?] using leads)⟩
      | cons => simp [found, Target.place?] at leads

/-- No directory stands where a file can be written. -/
theorem not_directory_of_follow {disk : Disk} {place : Location} {names : List String}
    (start : Location) (leads : (disk.follow start names).place? = some place) :
    disk.get? place ≠ some .directory := by
  -- The induction is on the names, from whatever directory they start.
  induction names generalizing start with
  | nil => simp [follow, Target.place?] at leads
  | cons name rest ih =>
    by_cases up : name = ".."
    · subst up
      exact ih _ (follow_up .. ▸ leads)
    · -- Only a directory lets the names lead on; anything else must stand at the last of them.
      by_cases isDirectory : disk.get? (start ++ [name]) = some .directory
      · exact ih _ (follow_directory up isDirectory rest ▸ leads)
      · obtain ⟨_, rfl⟩ := last_of_place up isDirectory leads
        exact isDirectory

/-- A file that is put where names lead to is found there by them. -/
theorem follow_put {disk : Disk} {place : Location} {names : List String} (start : Location)
    (leads : (disk.follow start names).place? = some place) (contents : ByteArray) :
    (disk.put place (.file contents)).follow start names = .file place contents := by
  have free := not_directory_of_follow start leads
  have below : place ≠ [] := by
    rintro rfl
    exact free rfl
  induction names generalizing start with
  | nil => simp [follow, Target.place?] at leads
  | cons name rest ih =>
    by_cases up : name = ".."
    · subst up
      rw [follow_up] at leads ⊢
      exact ih _ leads
    · by_cases isDirectory : disk.get? (start ++ [name]) = some .directory
      · -- A directory on the way is not the place, so it is still there.
        have elsewhere : start ++ [name] ≠ place := by
          rintro rfl
          exact free isDirectory
        have stays := (get?_put_of_ne disk elsewhere (.file contents)).trans isDirectory
        rw [follow_directory up isDirectory] at leads
        rw [follow_directory up stays]
        exact ih _ leads
      · -- This is the last name, and it leads to the place itself.
        obtain ⟨rfl, rfl⟩ := last_of_place up isDirectory leads
        rw [follow_cons _ _ up, get?_put_self _ below]
        rfl

/-- The names that lead to a file lead to a place for any other file next to it. -/
theorem follow_beside {disk : Disk} {place : Location} {contents : ByteArray} {names : List String}
    {last : String} (start : Location)
    (found : disk.follow start (names ++ [last]) = .file place contents) {name : String}
    (down : name ≠ "..") :
    disk.follow start (names ++ [name]) = .directory ∨
      ∃ place, (disk.follow start (names ++ [name])).place? = some place := by
  -- Both paths go through the same directories, and then look for a name in the same one.
  induction names generalizing start with
  | nil =>
    rw [List.nil_append, follow_cons _ _ down]
    split <;> simp [follow, Target.place?]
  | cons step rest ih =>
    rw [List.cons_append] at found ⊢
    by_cases up : step = ".."
    · subst up
      rw [follow_up] at found ⊢
      exact ih _ found
    · by_cases isDirectory : disk.get? (start ++ [step]) = some .directory
      · rw [follow_directory up isDirectory] at found ⊢
        exact ih _ found
      · -- The way has not ended here, as another name follows.
        have leads := congrArg Target.place? found
        have ended := (last_of_place up isDirectory leads).1
        simp at ended

/-- A file that can be read is found. -/
theorem find_of_read {disk : Disk} {path : Path} {contents : ByteArray}
    (readable : disk.read path = .ok contents) :
    ∃ place, disk.find path = .file place contents := by
  unfold read at readable
  split at readable <;> simp_all

/-- Next to a file there is a directory of the name with the suffix, or a place for
a file of that name. -/
theorem find_withSuffix {disk : Disk} {path : Path} {place : Location} {contents : ByteArray}
    {suffix : String} (found : disk.find path = .file place contents)
    (named : ∀ last, last ++ suffix ≠ "..") :
    disk.find (path.withSuffix suffix) = .directory ∨
      ∃ place, (disk.find (path.withSuffix suffix)).place? = some place := by
  obtain ⟨anchor, names⟩ := path
  rcases names.eq_nil_or_concat with rfl | ⟨before, last, rfl⟩
  · -- A path without names leads to a directory, not to a file.
    simp [find, follow] at found
  · rw [List.concat_eq_append] at found ⊢
    simp only [Path.withSuffix, List.getLast?_concat, List.dropLast_concat]
    exact follow_beside _ found (named last)

/-- What is written is found where it was written, and nothing else on the disk changes. -/
theorem write_gains {disk : Disk} {path : Path} {place : Location}
    (leads : (disk.find path).place? = some place) (contents : ByteArray) :
    ∃ changed, disk.write path contents = .ok changed ∧ disk.Gains place contents changed ∧
      changed.find path = .file place contents := by
  have below : place ≠ [] := by
    rintro rfl
    exact not_directory_of_follow _ leads rfl
  refine ⟨disk.put place (.file contents), ?_, disk.gains_put below contents,
    follow_put _ leads contents⟩
  unfold write
  cases target : disk.find path <;> rw [target] at leads <;> simp_all [Target.place?]

end Disk

end LoxLang
