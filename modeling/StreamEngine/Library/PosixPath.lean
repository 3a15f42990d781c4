import StreamEngine.Library.ByteString

/-! POSIX paths as byte strings, with the operations of `std::filesystem::path`. -/
namespace PosixPath
open ByteString

abbrev Path := Bytes

/-- The operator `/`, for a name that is not absolute. -/
def join (base name : Path) : Path :=
  if base = [] ∨ base.getLast? = some 47 then base ++ name else base ++ ascii "/" ++ name

/-- `parent_path`: what comes before the last name and the slashes that lead to it. -/
def parent (p : Path) : Path :=
  let dir := ((p.reverse.dropWhile (· ≠ 47)).dropWhile (· = 47)).reverse
  if dir = [] ∧ 47 ∈ p then ascii "/" else dir

example : parent (ascii "config//apps.json") = ascii "config" ∧ parent (ascii "/apps.json") = ascii "/" ∧
    parent (ascii "apps.json") = [] := by decide

theorem join_injective (base : Path) : Function.Injective (join base) := by
  intro name name' same
  unfold join at same
  split at same <;> exact List.append_cancel_left same

theorem join_append (base name suffix : Path) : join base name ++ suffix = join base (name ++ suffix) := by
  unfold join
  split <;> simp

end PosixPath
