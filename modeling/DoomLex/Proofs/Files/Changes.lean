/-
Looking at a tree of files and changing it. A change keeps the directories if what it puts is put in place of none;
then every path that led somewhere still leads there, so that what was written at a path is found at it, and what
was made once need not be made again.
-/
import DoomLex.FileTree

namespace DoomLex.FileTree

variable {fs fs' : FileTree} {p : Path} {place q r : Place} {node : Node} {s : Step} {steps rest : List Step}
variable {t : Text} {device : Device} {reserved : FileFault}

/-! ## Looking -/

theorem look_of_isFile (h : fs.isFile p = true) : ∃ content, fs.look p = .ok (.file content) := by
  unfold isFile at h
  split at h
  · rename_i content hlook
    exact ⟨content, hlook⟩
  · cases h

theorem isDirectory_iff : fs.isDirectory p = true ↔ fs.look p = .ok .directory := by
  unfold isDirectory
  split
  · rename_i hlook
    simp [hlook]
  · rename_i hlook
    simpa using hlook

theorem isDirectory_of_isFile (h : fs.isFile p = true) : fs.isDirectory p = false := by
  obtain ⟨content, hlook⟩ := look_of_isFile h
  rw [isDirectory, hlook]

theorem look_of_place (hplace : fs.place p = .ok place) (hnode : fs.node? place = some node) :
    fs.look p = .ok node := by
  rw [look, hplace]
  simp only [hnode]

theorem exists_place_of_isDirectory (h : fs.isDirectory p = true) :
    ∃ place, fs.place p = .ok place ∧ fs.node? place = some .directory := by
  rw [isDirectory_iff, look] at h
  split at h
  · cases h
  · rename_i place hplace
    split at h
    · cases h
    · rename_i node hnode
      cases h
      exact ⟨place, hplace, hnode⟩

theorem isDirectory_of_place (hplace : fs.place p = .ok place) (hnode : fs.node? place = some .directory) :
    fs.isDirectory p = true :=
  isDirectory_iff.2 (look_of_place hplace hnode)

/-! ## Following steps -/

theorem requireDirectory_eq_ok_iff : fs.requireDirectory place = .ok () ↔ fs.node? place = some .directory := by
  unfold requireDirectory
  split <;> rename_i hnode <;> simp [hnode]

theorem follow_cons_iff : fs.follow place (s :: rest) = .ok q ↔
    fs.node? place = some .directory ∧ s.isTooLong = false ∧ fs.follow (move place s) rest = .ok q := by
  rw [follow, ← requireDirectory_eq_ok_iff]
  cases fs.requireDirectory place with
  | error e => simp
  | ok u => cases s.isTooLong <;> simp

theorem follow_append : fs.follow place (steps ++ rest) =
    match fs.follow place steps with
    | .error e => .error e
    | .ok q => fs.follow q rest := by
  induction steps generalizing place with
  | nil => rfl
  | cons s steps ih =>
    rw [List.cons_append, follow, follow]
    cases fs.requireDirectory place with
    | error e => rfl
    | ok u =>
      cases s.isTooLong with
      | false => exact ih
      | true => rfl

theorem follow_append_iff : fs.follow place (steps ++ rest) = .ok q ↔
    ∃ r, fs.follow place steps = .ok r ∧ fs.follow r rest = .ok q := by
  rw [follow_append]
  cases fs.follow place steps with
  | error e => simp
  | ok r => simp

theorem follow_stay_iff : fs.follow r [.stay] = .ok q ↔ fs.node? r = some .directory ∧ r = q := by
  rw [follow_cons_iff]
  simp [Step.isTooLong, move, follow]

theorem place_eq_ok_iff : fs.place p = .ok q ↔ p.fault? = none ∧ fs.follow (fs.origin p) p.steps = .ok q ∧
    (p.endsInSlash = true → fs.node? q = some .directory) := by
  unfold place
  cases hfault : p.fault? with
  | some e => simp
  | none =>
    cases hslash : p.endsInSlash with
    | false => simp
    | true =>
      simp only [if_true, follow_append_iff, follow_stay_iff, true_and, forall_const]
      constructor
      · rintro ⟨r, hr, hnode, rfl⟩
        exact ⟨hr, hnode⟩
      · rintro ⟨hq, hnode⟩
        exact ⟨q, hq, hnode, rfl⟩

/-! ## Trees with more in them -/

/-- All directories of a tree are still there in another. -/
structure Keeps (fs fs' : FileTree) : Prop where
  here : fs'.here = fs.here
  directory : ∀ place, fs.node? place = some .directory → fs'.node? place = some .directory

theorem Keeps.follow_eq (h : Keeps fs fs') (hfollow : fs.follow place steps = .ok q) :
    fs'.follow place steps = .ok q := by
  induction steps generalizing place with
  | nil => exact hfollow
  | cons s steps ih =>
    obtain ⟨hnode, hlong, hrest⟩ := follow_cons_iff.1 hfollow
    exact follow_cons_iff.2 ⟨h.directory place hnode, hlong, ih hrest⟩

theorem Keeps.origin_eq (h : Keeps fs fs') (p : Path) : fs'.origin p = fs.origin p := by
  rw [origin, origin, h.here]

theorem Keeps.place_eq (h : Keeps fs fs') (hplace : fs.place p = .ok q) : fs'.place p = .ok q := by
  obtain ⟨hfault, hfollow, hslash⟩ := place_eq_ok_iff.1 hplace
  refine place_eq_ok_iff.2 ⟨hfault, ?_, fun hends => h.directory q (hslash hends)⟩
  rw [h.origin_eq]
  exact h.follow_eq hfollow

theorem Keeps.isDirectory (h : Keeps fs fs') (hdirectory : fs.isDirectory p = true) : fs'.isDirectory p = true := by
  obtain ⟨place, hplace, hnode⟩ := exists_place_of_isDirectory hdirectory
  exact isDirectory_of_place (h.place_eq hplace) (h.directory place hnode)

/-! ## Putting -/

theorem lookup_filter_ne {nodes : List (Place × Node)} (h : r ≠ q) :
    (nodes.filter (·.1 ≠ q)).lookup r = nodes.lookup r := by
  induction nodes with
  | nil => rfl
  | cons n nodes ih =>
    obtain ⟨k, node⟩ := n
    by_cases hk : k = q
    · have hr : (r == k) = false := beq_eq_false_iff_ne.2 (hk ▸ h)
      rw [List.filter_cons_of_neg (by simpa using hk), ih, List.lookup_cons, hr]
    · rw [List.filter_cons_of_pos (by simpa using hk), List.lookup_cons, List.lookup_cons, ih]

theorem node?_put (hq : q ≠ []) (node : Node) (r : Place) :
    (fs.put q node).node? r = if r = q then some node else fs.node? r := by
  unfold node? put
  by_cases hr : r = q
  · rw [if_pos hr, hr, if_neg hq, List.lookup_cons_self]
  · have hne : (r == q) = false := beq_eq_false_iff_ne.2 hr
    rw [if_neg hr, List.lookup_cons, hne, lookup_filter_ne hr]

theorem put_put (fs : FileTree) (q : Place) (node node' : Node) : (fs.put q node).put q node' = fs.put q node' := by
  simp [put]

theorem ne_nil_of_node? (h : fs.node? q ≠ some .directory) : q ≠ [] := by
  rintro rfl
  exact h rfl

theorem keeps_put (h : fs.node? q ≠ some .directory) (node : Node) : Keeps fs (fs.put q node) where
  here := rfl
  directory r hr := by
    have hne : r ≠ q := fun heq => h (heq ▸ hr)
    rwa [node?_put (ne_nil_of_node? h), if_neg hne]

/-! ## New entries -/

theorem dropLast_append_of_getLast? (h : steps.getLast? = some s) : steps.dropLast ++ [s] = steps := by
  obtain ⟨front, rfl⟩ := List.getLast?_eq_some_iff.1 h
  rw [List.dropLast_concat]

theorem entryPlace_down {name : Text} (hfault : p.fault? = none) (h : p.steps.getLast? = some (.down name)) :
    fs.entryPlace p reserved = fs.follow (fs.origin p) p.steps := by
  have hsplit := dropLast_append_of_getLast? h
  unfold entryPlace
  rw [← hsplit, follow_append, hsplit]
  cases fs.follow (fs.origin p) p.steps.dropLast <;> simp only [hfault, h]

theorem entryPlace_not_down (hfault : p.fault? = none) (h : ∀ name, p.steps.getLast? ≠ some (.down name)) :
    fs.entryPlace p reserved =
      match fs.follow (fs.origin p) p.steps with
      | .error e => .error e
      | .ok _ => .error reserved := by
  unfold entryPlace
  rw [hfault]
  cases hlast : p.steps.getLast? with
  | none =>
    rw [List.getLast?_eq_none_iff.1 hlast]
    rfl
  | some last =>
    have hsplit := dropLast_append_of_getLast? hlast
    cases last with
    | stay | up => cases hfollow : fs.follow (fs.origin p) p.steps <;> simp only [hsplit, hfollow]
    | down name => exact absurd hlast (h name)

theorem entryPlace_eq_ok_iff : fs.entryPlace p reserved = .ok q ↔ p.fault? = none ∧
    (∃ name, p.steps.getLast? = some (.down name)) ∧ fs.follow (fs.origin p) p.steps = .ok q := by
  cases hfault : p.fault? with
  | some e => simp [entryPlace, hfault]
  | none =>
    by_cases hdown : ∃ name, p.steps.getLast? = some (.down name)
    · obtain ⟨name, hname⟩ := hdown
      rw [entryPlace_down hfault hname]
      exact ⟨fun h => ⟨rfl, ⟨name, hname⟩, h⟩, fun h => h.2.2⟩
    · rw [entryPlace_not_down hfault (not_exists.1 hdown)]
      cases fs.follow (fs.origin p) p.steps <;> simp [hdown]

/-! ## Writing -/

/-- By a path the file at a place can be opened to be written to. -/
structure Opens (fs : FileTree) (p : Path) (q : Place) : Prop where
  entry : fs.entryPlace p .isADirectory = .ok q
  slash : p.endsInSlash = false
  node : fs.node? q ≠ some .directory

theorem openEmpty_eq_ok_iff :
    fs.openEmpty p = .ok (fs', q) ↔ Opens fs p q ∧ fs' = fs.put q (.file (.text [])) := by
  unfold openEmpty
  constructor
  · intro h
    split at h
    · cases h
    · rename_i place hentry
      split at h
      · cases h
      · rename_i hnot
        cases h
        simp only [Bool.or_eq_true, beq_iff_eq, not_or, Bool.not_eq_true] at hnot
        exact ⟨⟨hentry, hnot.1, hnot.2⟩, rfl⟩
  · rintro ⟨⟨hentry, hslash, hnode⟩, rfl⟩
    simp [hentry, hslash, hnode]

/-- What a path opens is the place that it leads to. -/
theorem Opens.place_eq (h : Opens fs p q) : fs.place p = .ok q := by
  obtain ⟨hfault, -, hfollow⟩ := entryPlace_eq_ok_iff.1 h.entry
  refine place_eq_ok_iff.2 ⟨hfault, hfollow, fun hends => ?_⟩
  rw [h.slash] at hends
  cases hends

theorem Opens.write_whole (h : Opens fs p q) (hdevice : device q t = .whole) :
    fs.write p t device = (fs.put q (.file (.text t)), .ok ()) := by
  have hopen := openEmpty_eq_ok_iff.2 ⟨h, rfl⟩
  simp only [write, hopen, hdevice, put_put]

theorem Opens.write_cut {bytes : Nat} {fault : FileFault} (h : Opens fs p q)
    (hdevice : device q t = .cut bytes fault) :
    fs.write p t device = (fs.put q (.file (.front t bytes)), .error fault) := by
  have hopen := openEmpty_eq_ok_iff.2 ⟨h, rfl⟩
  simp only [write, hopen, hdevice, put_put]

/-- Writing fails before anything is changed, or there is a file that was opened for it. -/
theorem write_cases (fs : FileTree) (p : Path) (t : Text) (device : Device) :
    (∃ e, fs.write p t device = (fs, .error e)) ∨ ∃ q, Opens fs p q := by
  cases hopen : fs.openEmpty p with
  | error e => exact .inl ⟨e, by simp only [write, hopen]⟩
  | ok opened => exact .inr ⟨opened.2, (openEmpty_eq_ok_iff.1 hopen).1⟩

theorem write_eq_ok_iff : fs.write p t device = (fs', .ok ()) ↔
    ∃ q, Opens fs p q ∧ device q t = .whole ∧ fs' = fs.put q (.file (.text t)) := by
  constructor
  · intro h
    rcases write_cases fs p t device with ⟨e, he⟩ | ⟨q, hopens⟩
    · rw [he] at h
      cases h
    · cases hdevice : device q t with
      | whole =>
        rw [hopens.write_whole hdevice] at h
        exact ⟨q, hopens, hdevice, (Prod.mk.inj h).1.symm⟩
      | cut bytes fault =>
        rw [hopens.write_cut hdevice] at h
        cases h
  · rintro ⟨q, hopens, hdevice, rfl⟩
    exact hopens.write_whole hdevice

/-- What is written to a file is found in it. -/
theorem look_of_write (h : fs.write p t device = (fs', .ok ())) : fs'.look p = .ok (.file (.text t)) := by
  obtain ⟨q, hopens, -, rfl⟩ := write_eq_ok_iff.1 h
  have hplace := (keeps_put hopens.node (.file (.text t))).place_eq hopens.place_eq
  exact look_of_place hplace (by rw [node?_put (ne_nil_of_node? hopens.node), if_pos rfl])

theorem keeps_of_write (h : fs.write p t device = (fs', .ok ())) : Keeps fs fs' := by
  obtain ⟨q, hopens, -, rfl⟩ := write_eq_ok_iff.1 h
  exact keeps_put hopens.node _

/-- To write the same once more changes nothing. -/
theorem write_of_write (h : fs.write p t device = (fs', .ok ())) : fs'.write p t device = (fs', .ok ()) := by
  obtain ⟨q, hopens, hdevice, rfl⟩ := write_eq_ok_iff.1 h
  obtain ⟨hfault, hdown, hfollow⟩ := entryPlace_eq_ok_iff.1 hopens.entry
  have hkeeps := keeps_put hopens.node (.file (.text t))
  have hfound : (fs.put q (.file (.text t))).node? q = some (.file (.text t)) := by
    rw [node?_put (ne_nil_of_node? hopens.node), if_pos rfl]
  refine write_eq_ok_iff.2 ⟨q, ⟨entryPlace_eq_ok_iff.2 ⟨hfault, hdown, ?_⟩, hopens.slash, ?_⟩, hdevice, ?_⟩
  · rw [hkeeps.origin_eq]
    exact hkeeps.follow_eq hfollow
  · rw [hfound]
    exact nofun
  · exact (put_put ..).symm

/-! ## Making directories -/

theorem makeDirectory_eq_ok_iff : fs.makeDirectory p = .ok fs' ↔
    ∃ q, fs.entryPlace p .alreadyExists = .ok q ∧ fs.node? q = none ∧ fs' = fs.put q .directory := by
  unfold makeDirectory
  cases fs.entryPlace p .alreadyExists with
  | error e => simp
  | ok q =>
    cases hnode : fs.node? q with
    | none => simpa [hnode] using eq_comm
    | some node => simp [hnode]

theorem isDirectory_of_makeDirectory (h : fs.makeDirectory p = .ok fs') : fs'.isDirectory p = true := by
  obtain ⟨q, hentry, hnode, rfl⟩ := makeDirectory_eq_ok_iff.1 h
  obtain ⟨hfault, -, hfollow⟩ := entryPlace_eq_ok_iff.1 hentry
  have hnot : fs.node? q ≠ some .directory := by
    rw [hnode]
    exact nofun
  have hkeeps := keeps_put hnot .directory
  have hmade : (fs.put q .directory).node? q = some .directory := by
    rw [node?_put (ne_nil_of_node? hnot), if_pos rfl]
  refine isDirectory_of_place (place_eq_ok_iff.2 ⟨hfault, ?_, fun _ => hmade⟩) hmade
  rw [hkeeps.origin_eq]
  exact hkeeps.follow_eq hfollow

theorem makeDirectory_of_isDirectory (h : fs.isDirectory p = true) :
    fs.makeDirectory p = .error .alreadyExists := by
  obtain ⟨q, hplace, hnode⟩ := exists_place_of_isDirectory h
  obtain ⟨hfault, hfollow, -⟩ := place_eq_ok_iff.1 hplace
  unfold makeDirectory
  by_cases hdown : ∃ name, p.steps.getLast? = some (.down name)
  · obtain ⟨name, hname⟩ := hdown
    rw [entryPlace_down hfault hname, hfollow]
    simp only [hnode, Option.isSome_some, if_true]
  · rw [entryPlace_not_down hfault (not_exists.1 hdown), hfollow]

/-- A fault is passed over only where the directory is there all the same. -/
theorem isDirectory_of_fault {ε : Type} {e : ε}
    (h : (fs, if fs.isDirectory p then Except.ok () else Except.error e) = (fs', Except.ok ())) :
    fs'.isDirectory p = true := by
  cases hdirectory : fs.isDirectory p with
  | false => simp [hdirectory] at h
  | true =>
    obtain ⟨rfl, -⟩ := Prod.mk.inj h
    exact hdirectory

theorem isDirectory_of_makeDirectories {outer : List Path}
    (h : fs.makeDirectories (p :: outer) = (fs', .ok ())) : fs'.isDirectory p = true := by
  rw [makeDirectories] at h
  split at h
  · rename_i made hmade
    cases h
    exact isDirectory_of_makeDirectory hmade
  · split at h
    · cases h
    · split at h
      · rename_i made hmade
        cases h
        exact isDirectory_of_makeDirectory hmade
      · exact isDirectory_of_fault h
  · exact isDirectory_of_fault h

theorem isDirectory_of_makePath (h : fs.makePath p = (fs', .ok ())) (hne : p.spelling ≠ []) :
    fs'.isDirectory p = true := by
  rw [makePath, if_neg hne] at h
  exact isDirectory_of_makeDirectories h

/-- A directory that is there is not made again. -/
theorem makePath_of_isDirectory (h : p.spelling ≠ [] → fs.isDirectory p = true) :
    fs.makePath p = (fs, .ok ()) := by
  unfold makePath
  split
  · rfl
  · rename_i hne
    rw [makeDirectories, makeDirectory_of_isDirectory (h hne)]
    simp [h hne]

end DoomLex.FileTree
