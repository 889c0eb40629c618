import LuaTidy.Files.Disk
import LuaTidy.Proofs.Entries

/-!
What file operations leave alone. Creating directories only adds nodes, and writing a file changes
the one node it leads to, which is no directory: every path that led somewhere leads there still.
-/
namespace LuaTidy

namespace Disk

theorem node?_put (d : Disk) (p : Place) (n : Node) (q : Place) :
    (d.put p n).node? q = if q = [] then some .directory else if p = q then some n else d.node? q := by
  by_cases hq : q = []
  · simp [node?, hq]
  · simp [node?, put, hq, Entries.get?_insert]

theorem node?_put_self {p : Place} (hp : p ≠ []) (d : Disk) (n : Node) :
    (d.put p n).node? p = some n := by
  rw [node?_put, if_neg hp, if_pos rfl]

theorem node?_put_of_ne {p q : Place} (h : p ≠ q) (d : Disk) (n : Node) :
    (d.put p n).node? q = d.node? q := by
  rw [node?_put, if_neg h]
  split
  · next hq => simp [node?, hq]
  · rfl

/-- A disk starts relative paths where another one does, and has at least its directories. -/
structure KeepsDirectories (d d' : Disk) : Prop where
  working : d'.working = d.working
  directory : ∀ p, d.node? p = some .directory → d'.node? p = some .directory

/-- A disk has at least the nodes of another one. -/
structure Grows (d d' : Disk) : Prop where
  working : d'.working = d.working
  node : ∀ p n, d.node? p = some n → d'.node? p = some n

theorem Grows.refl (d : Disk) : Grows d d := ⟨rfl, fun _ _ h => h⟩

theorem Grows.trans {d₁ d₂ d₃ : Disk} (h : Grows d₁ d₂) (h' : Grows d₂ d₃) : Grows d₁ d₃ :=
  ⟨h'.working.trans h.working, fun p n hp => h'.node p n (h.node p n hp)⟩

theorem Grows.keepsDirectories {d d' : Disk} (h : Grows d d') : KeepsDirectories d d' :=
  ⟨h.working, fun p hp => h.node p _ hp⟩

theorem grows_put {d : Disk} {p : Place} (hp : d.node? p = none) (n : Node) :
    Grows d (d.put p n) := by
  refine ⟨rfl, fun q m hq => ?_⟩
  rwa [node?_put_of_ne]
  rintro rfl
  rw [hp] at hq
  cases hq

theorem keepsDirectories_put {d : Disk} {p : Place} (hp : d.node? p ≠ some .directory) (n : Node) :
    KeepsDirectories d (d.put p n) := by
  refine ⟨rfl, fun q hq => ?_⟩
  rwa [node?_put_of_ne]
  rintro rfl
  exact hp hq

theorem walk_append (d : Disk) (here : Place) (ns ms : List Text) :
    d.walk here (ns ++ ms) = (d.walk here ns).bind fun p => d.walk p ms := by
  induction ns generalizing here with
  | nil => rfl
  | cons n ns ih =>
    simp only [List.cons_append, walk]
    split
    · rfl
    · rfl
    · split
      · exact ih _
      · split
        · exact ih _
        · split
          · rfl
          · exact ih _

theorem walk_append_eq_ok {d : Disk} {here p : Place} {ns ms : List Text}
    (h : d.walk here (ns ++ ms) = .ok p) : ∃ q, d.walk here ns = .ok q ∧ d.walk q ms = .ok p := by
  rw [walk_append] at h
  cases hq : d.walk here ns with
  | ok q =>
    rw [hq] at h
    exact ⟨q, rfl, h⟩
  | error e =>
    rw [hq] at h
    cases h

theorem KeepsDirectories.walk {d d' : Disk} (h : KeepsDirectories d d') {here p : Place}
    {ns : List Text} (hw : d.walk here ns = .ok p) : d'.walk here ns = .ok p := by
  induction ns generalizing here with
  | nil => exact hw
  | cons n ns ih =>
    simp only [Disk.walk] at hw ⊢
    split at hw
    · cases hw
    · cases hw
    · next hdir =>
      simp only [h.directory here hdir]
      split at hw
      · next hup => rw [if_pos hup]; exact ih hw
      · next hup =>
        rw [if_neg hup]
        split at hw
        · next hhere => rw [if_pos hhere]; exact ih hw
        · next hhere =>
          rw [if_neg hhere]
          split at hw
          · cases hw
          · next hlong => rw [if_neg hlong]; exact ih hw

/-- The names that a path leads through. -/
def steps (path : Text) : List Text := (Text.splitAt '/' path).filter (!·.isEmpty)

def start (d : Disk) (path : Text) : Place := if path.head? = some '/' then [] else d.working

/-- Whether the system looks at a path at all. -/
def Readable (path : Text) : Prop :=
  path.contains '\x00' = false ∧ (Text.Utf8.encode path).length < pathLimit

theorem locate_eq_ok_iff (d : Disk) (path : Text) (p : Place) :
    d.locate path = .ok p ↔ Readable path ∧ d.walk (d.start path) (steps path) = .ok p := by
  simp only [locate, Readable, start, steps]
  cases hnul : path.contains '\x00' with
  | true => simp
  | false =>
    rw [if_neg Bool.false_ne_true]
    split
    · next hlong => simp [Nat.not_lt.mpr hlong]
    · next hlong =>
      cases d.walk (if path.head? = some '/' then [] else d.working)
        ((Text.splitAt '/' path).filter (!·.isEmpty)) with
      | ok q => simp [Nat.not_le.mp hlong]
      | error e => simp

theorem KeepsDirectories.locate {d d' : Disk} (h : KeepsDirectories d d') {path : Text} {p : Place}
    (hp : d.locate path = .ok p) : d'.locate path = .ok p := by
  rw [locate_eq_ok_iff] at hp ⊢
  refine ⟨hp.1, ?_⟩
  have hstart : d'.start path = d.start path := by rw [start, start, h.working]
  rw [hstart]
  exact h.walk hp.2

theorem read_eq_ok_iff (d : Disk) (path : Text) (content : Text.Utf8.Bytes) :
    d.read path = .ok content ↔ ∃ p, d.locate path = .ok p ∧ d.node? p = some (.file content) := by
  simp only [read, stat]
  cases hp : d.locate path with
  | error e => simp
  | ok p =>
    cases hn : d.node? p with
    | none => simp [hn]
    | some n => cases n <;> simp [hn]

theorem isDirectory?_of_read {d : Disk} {path : Text} {content : Text.Utf8.Bytes}
    (h : d.read path = .ok content) : d.isDirectory? path = .ok false := by
  obtain ⟨p, hp, hfile⟩ := (read_eq_ok_iff ..).mp h
  simp [isDirectory?, ask, stat, hp, hfile]

end Disk

namespace FileOp
open Disk

theorem grows_makeDirectory (path : Text) (d : Disk) : Grows d (makeDirectory path d).2 := by
  rw [makeDirectory]
  split
  · exact .refl d
  · split
    · exact .refl d
    · next hnone => exact grows_put hnone _

theorem grows_of_makeDirectory {path : Text} {d d' : Disk} {r : Except FileError Unit}
    (h : makeDirectory path d = (r, d')) : Grows d d' := by
  have hgrows := grows_makeDirectory path d
  rwa [h] at hgrows

theorem unlessThere_disk (path : Text) (e : FileError) (d : Disk) :
    (unlessThere path e d).2 = d := by
  cases e with
  | nul => rfl
  | refused why p =>
    cases h : d.isDirectory? path with
    | ok there => cases there <;> simp [unlessThere, h]
    | error e' => simp [unlessThere, h]

/-- Whether they succeed or not, directories are created where there was nothing. -/
theorem grows_makeDirectoriesFrom (root : Text) (rest : List Text) (d : Disk) :
    Grows d (makeDirectoriesFrom root rest d).2 := by
  induction rest generalizing d with
  | nil =>
    simp only [makeDirectoriesFrom]
    split
    · next he =>
      rw [unlessThere_disk]
      exact grows_of_makeDirectory he
    · exact grows_makeDirectory _ d
  | cons last above ih =>
    simp only [makeDirectoriesFrom]
    split
    · next he => exact grows_of_makeDirectory he
    · next d' he =>
      have habove := (grows_of_makeDirectory he).trans (ih d')
      split
      · next hab => rwa [hab] at habove
      · next hab =>
        rw [hab] at habove
        split
        · next hagain => exact habove.trans (grows_of_makeDirectory hagain)
        · next hagain => exact habove.trans (grows_of_makeDirectory hagain)
        · next hagain =>
          rw [unlessThere_disk]
          exact habove.trans (grows_of_makeDirectory hagain)
    · next he =>
      rw [unlessThere_disk]
      exact grows_of_makeDirectory he

theorem grows_makeDirectories (p : Path) (d : Disk) : Grows d (makeDirectories p d).2 :=
  grows_makeDirectoriesFrom _ _ d

/-- Writing succeeds where a path leads to a place without a directory, and puts a file there. -/
theorem write_eq_ok_iff (path : Text) (content : Text.Utf8.Bytes) (d d' : Disk) :
    write path content d = (.ok (), d') ↔
      ∃ p, d.locate path = .ok p ∧ d.node? p ≠ some .directory ∧ d' = d.put p (.file content) := by
  constructor
  · intro h
    rw [write] at h
    split at h
    · cases h
    · next p hp =>
      split at h
      · cases h
      · next hdir =>
        cases h
        exact ⟨p, hp, hdir, rfl⟩
  · rintro ⟨p, hp, hdir, rfl⟩
    simp only [write, hp]

theorem write_disk_of_error {path : Text} {content : Text.Utf8.Bytes} {d d' : Disk} {e : FileError}
    (h : write path content d = (.error e, d')) : d' = d := by
  rw [write] at h
  split at h
  · cases h
    rfl
  · split at h
    · cases h
      rfl
    · cases h

/-- Whether a file can be written does not depend on its content. -/
theorem write_answer (path : Text) (content content' : Text.Utf8.Bytes) (d : Disk) :
    (write path content d).1 = (write path content' d).1 := by
  rw [write, write]
  split
  · rfl
  · split <;> rfl

theorem read_of_write {path : Text} {content : Text.Utf8.Bytes} {d d' : Disk}
    (h : write path content d = (.ok (), d')) : d'.read path = .ok content := by
  obtain ⟨p, hp, hdir, rfl⟩ := (write_eq_ok_iff path content d d').mp h
  have hroot : p ≠ [] := by
    rintro rfl
    exact hdir rfl
  exact (read_eq_ok_iff _ path content).mpr
    ⟨p, (keepsDirectories_put hdir _).locate hp, node?_put_self hroot d _⟩

end FileOp
end LuaTidy
