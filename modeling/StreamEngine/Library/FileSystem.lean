import Mathlib.Logic.Function.Basic

/-! Files whose operations may fail. An operation takes how it goes as an argument, so a program
run under every such argument is a program run under every pattern of failures. What a stream
was given may be cut short after the stream has last been asked whether it is good. -/
namespace FileSystem

variable {π α : Type} [DecidableEq π]

/-- The content of each file that exists. -/
abbrev Files (π α : Type) := π → Option (List α)

/-- The part of some data that gets through before it is cut short. -/
def cutTo (cut : Option Nat) (data : List α) : List α :=
  match cut with
  | none => data
  | some n => data.take n

/-- How reading a file goes: whether it opens, and where the reading is cut short. -/
structure Input where
  opens : Bool
  cut : Option Nat
deriving DecidableEq

/-- What is read of a content, `none` if the stream does not open. -/
def Input.gets (i : Input) (content : Option (List α)) : Option (List α) :=
  if i.opens then content.map (cutTo i.cut) else none

/-- How replacing a file's content goes: whether the stream opens, whether it is still good after
the data was given to it, and where the data is cut short by the time the file is closed. -/
structure Output where
  opens : Bool
  good : Bool
  cut : Option Nat
deriving DecidableEq

/-- Whether the stream is good when it is last asked. -/
def Output.reports (o : Output) : Bool := o.opens && o.good

/-- What the file holds after the stream is closed. -/
def Output.leaves (o : Output) (data : List α) (content : Option (List α)) : Option (List α) :=
  if o.opens then some (cutTo o.cut data) else content

/-- Nothing fails. -/
def Input.whole : Input := ⟨true, none⟩

def Output.whole : Output := ⟨true, true, none⟩

variable (p q : π)

def readStream (i : Input) : StateM (Files π α) (Option (List α)) :=
  fun files => (i.gets (files p), files)

/-- A stream that truncates the file, is given the data and is closed. -/
def writeStream (data : List α) (o : Output) : StateM (Files π α) Bool :=
  fun files => (o.reports, Function.update files p (o.leaves data (files p)))

/-- A file takes the place of another one, if `ok`. -/
def rename (ok : Bool) : StateM (Files π α) Bool := fun files =>
  if ok = true ∧ files p ≠ none then
    (true, Function.update (Function.update files q (files p)) p none)
  else (false, files)

/-- Removing a file that is not there succeeds. -/
def remove (ok : Bool) : StateM (Files π α) Bool :=
  fun files => if ok then (true, Function.update files p none) else (false, files)

@[simp]
theorem Input.gets_whole (content : Option (List α)) : Input.whole.gets content = content := by
  cases content <;> rfl

@[simp]
theorem Output.leaves_whole (data : List α) (content : Option (List α)) :
    Output.whole.leaves data content = some data := rfl

@[simp]
theorem run_writeStream (data : List α) (o : Output) (files : Files π α) :
    (writeStream p data o).run files =
      (o.reports, Function.update files p (o.leaves data (files p))) := rfl

@[simp]
theorem run_remove (ok : Bool) (files : Files π α) :
    (remove p ok).run files = (ok, if ok then Function.update files p none else files) := by
  cases ok <;> rfl

theorem run_rename {files : Files π α} (ok : Bool) (there : files p ≠ none) :
    (rename p q ok).run files =
      (ok, if ok then Function.update (Function.update files q (files p)) p none else files) := by
  cases ok with
  | false => rfl
  | true => exact if_pos ⟨rfl, there⟩

theorem cutTo_prefix (cut : Option Nat) (data : List α) : cutTo cut data <+: data := by
  cases cut with
  | none => exact List.prefix_refl data
  | some n => exact List.take_prefix n data

end FileSystem
