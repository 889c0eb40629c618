import LuaTidy.Command.Clean
import LuaTidy.Proofs.Effects

/-!
What parts of a command leave alone. Most parts only write messages: they end alike whatever is on
the disk and whatever has been printed, and change neither.
-/
namespace LuaTidy.Command

variable {α β : Type}

/-- The command ends alike in all sessions with the same messages, and only adds to these. -/
def OnlyMessages (c : Command α) : Prop :=
  ∀ (s : Session) (d : Disk) (out : Text), c { s with disk := d, out := out } =
    ((c s).1, { (c s).2 with disk := d, out := out })

namespace OnlyMessages

theorem pure (a : α) : OnlyMessages (Pure.pure a : Command α) := fun _ _ _ => rfl

theorem throw (e : EarlyEnd) : OnlyMessages (MonadExcept.throw e : Command α) := fun _ _ _ => rfl

theorem putErr (s : Text) : OnlyMessages (Command.putErr s) := fun _ _ _ => rfl

theorem bind {x : Command α} {f : α → Command β} (hx : OnlyMessages x)
    (hf : ∀ a, OnlyMessages (f a)) : OnlyMessages (x >>= f) := by
  intro s d out
  have hmoved := hx s d out
  rcases h : x s with ⟨r, t⟩
  rw [h] at hmoved
  cases r with
  | ok a => rw [bind_of_ok h, bind_of_ok hmoved, hf a t d out]
  | error e => rw [bind_of_error h, bind_of_error hmoved]

theorem tell (host : Host) (message : Text) : OnlyMessages (Command.tell host message) := by
  rw [Command.tell]
  split
  · exact putErr _
  · exact throw _

theorem fail (host : Host) (message : Text) :
    OnlyMessages (Command.fail host message : Command α) := (tell host _).bind fun _ => throw _

theorem log (cfg : Config) (around : Surroundings) (ms : List LogMessage) :
    OnlyMessages (Command.log cfg around ms) := putErr _

theorem outputFailed (host : Host) (dest : Text) (e : OutputError) :
    OnlyMessages (Command.outputFailed host dest e : Command α) := by
  rw [Command.outputFailed.eq_def]
  split
  · exact throw _
  · exact fail host _
  · exact throw _

theorem stagesFailed (host : Host) (e : StagesError) :
    OnlyMessages (Command.stagesFailed host e : Command α) := by
  rw [Command.stagesFailed.eq_def]
  split
  · exact fail host _
  · exact throw _

theorem showTechniques (host : Host) (r : Outcome) :
    OnlyMessages (Command.showTechniques host r) := by
  rw [Command.showTechniques]
  split
  · exact putErr _
  · exact tell host _

theorem keeps {c : Command α} (h : OnlyMessages c) (s : Session) :
    (c s).2.disk = s.disk ∧ (c s).2.out = s.out := by
  have hsame : c s = ((c s).1, { (c s).2 with disk := s.disk, out := s.out }) := h s s.disk s.out
  exact ⟨congrArg (fun p : Except EarlyEnd α × Session => p.2.disk) hsame,
    congrArg (fun p : Except EarlyEnd α × Session => p.2.out) hsame⟩

/-- Sessions that differ in their disks only are followed by such sessions again. -/
theorem of_disk {c : Command α} (h : OnlyMessages c) (s : Session) (d : Disk) :
    c { s with disk := d } = ((c s).1, { (c s).2 with disk := d }) := by
  have hmoved : c { s with disk := d } = ((c s).1, ⟨d, s.out, (c s).2.err⟩) := h s d s.out
  rw [hmoved, ← (h.keeps s).2]

end OnlyMessages

theorem look_apply {α : Type} (f : Disk → α) (s : Session) : look f s = (.ok (f s.disk), s) := rfl

theorem attempt_apply (op : OutputOp α) (s : Session) :
    attempt op s = (.ok (op s.disk).1, { s with disk := (op s.disk).2 }) := rfl

/-- The command prints nothing. -/
def KeepsOut (c : Command α) : Prop := ∀ s, (c s).2.out = s.out

theorem OnlyMessages.keepsOut {c : Command α} (h : OnlyMessages c) : KeepsOut c :=
  fun s => (h.keeps s).2

theorem KeepsOut.bind {x : Command α} {f : α → Command β} (hx : KeepsOut x)
    (hf : ∀ a, KeepsOut (f a)) : KeepsOut (x >>= f) := fun s =>
  bind_state (R := fun s t : Session => t.out = s.out) (fun h h' => h'.trans h) hx hf s

/-- The command leaves the disk as it is. -/
def KeepsDisk (c : Command α) : Prop := ∀ s, (c s).2.disk = s.disk

theorem KeepsDisk.bind {x : Command α} {f : α → Command β} (hx : KeepsDisk x)
    (hf : ∀ a, KeepsDisk (f a)) : KeepsDisk (x >>= f) := fun s =>
  bind_state (R := fun s t : Session => t.disk = s.disk) (fun h h' => h'.trans h) hx hf s

/-- The command looks at the disk and writes messages, and does nothing else. -/
structure OnlyReads (c : Command α) : Prop where
  disk : KeepsDisk c
  out : KeepsOut c

namespace OnlyReads

theorem look (f : Disk → α) : OnlyReads (Command.look f) := ⟨fun _ => rfl, fun _ => rfl⟩

theorem bind {x : Command α} {f : α → Command β} (hx : OnlyReads x) (hf : ∀ a, OnlyReads (f a)) :
    OnlyReads (x >>= f) :=
  ⟨hx.disk.bind fun a => (hf a).disk, hx.out.bind fun a => (hf a).out⟩

end OnlyReads

theorem OnlyMessages.onlyReads {c : Command α} (h : OnlyMessages c) : OnlyReads c :=
  ⟨fun s => (h.keeps s).1, fun s => (h.keeps s).2⟩

/-- What only writes messages after another command leaves the disk as that one has left it. -/
theorem disk_bind {x : Command α} {f : α → Command β} (hf : ∀ a, OnlyMessages (f a)) (s : Session) :
    ((x >>= f) s).2.disk = (x s).2.disk := by
  rcases h : x s with ⟨r, t⟩
  cases r with
  | ok a => rw [bind_of_ok h, ((hf a).keeps t).1]
  | error e => rw [bind_of_error h]

end LuaTidy.Command
