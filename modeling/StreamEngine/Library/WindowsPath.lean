import StreamEngine.Library.ByteString

/-! Windows paths as byte strings, with two operations of `std::filesystem::path`. Both slashes
separate names. A root name (a drive, a server, or one of the device prefixes) and the slashes after it
are no part of a parent that could be taken away. -/
namespace WindowsPath
open ByteString

def isSlash (c : UInt8) : Bool := c == 47 || c == 92

def isLetter (c : UInt8) : Bool := (65 ≤ c && c ≤ 90) || (97 ≤ c && c ≤ 122)

/-- The length of the root name. -/
def rootNameLength : Bytes → Nat
  | a :: b :: rest =>
    if isLetter a && b == 58 then 2
    else if !isSlash a then 0
    else
      match rest with
      | [] => 0
      | c :: rest =>
        -- the prefixes of devices: two slashes and a mark, or a slash and two marks
        let device := (isSlash b && (c == 63 || c == 46)) || (b == 63 && c == 63)
        let closed := match rest with
          | [] => false
          | d :: rest => isSlash d && !(rest.head?.any isSlash)
        if device && closed then 3
        else if isSlash b && !isSlash c then 3 + (rest.takeWhile (!isSlash ·)).length
        else 0
  | _ => 0

/-- The length of the root name and of the slashes after it. -/
def rootLength (p : Bytes) : Nat :=
  rootNameLength p + ((p.drop (rootNameLength p)).takeWhile isSlash).length

/-- `parent_path`: the last name and the slashes before it are taken away, but for the root. -/
def parent (p : Bytes) : Bytes :=
  let relative := (p.drop (rootLength p)).reverse
  p.take (rootLength p) ++ ((relative.dropWhile (!isSlash ·)).dropWhile isSlash).reverse

/-- The operator `/`, for a name without a root. A drive alone takes no separator, a server does. -/
def join (base name : Bytes) : Bytes :=
  if rootNameLength base = base.length then
    if 3 ≤ base.length then base ++ 92 :: name else base ++ name
  else if base.getLast?.any isSlash then base ++ name
  else base ++ 92 :: name

example : parent (ascii "C:\\Users\\a b\\apps.json") = ascii "C:\\Users\\a b" ∧
    parent (ascii "C:\\apps.json") = ascii "C:\\" ∧ parent (ascii "apps.json") = [] := by decide

/-- Nothing in a parent is new. -/
theorem parent_subset (p : Bytes) : parent p ⊆ p := by
  intro c member
  rcases List.mem_append.mp member with root | name
  · exact List.mem_of_mem_take root
  · have kept := (List.dropWhile_suffix _).mem ((List.dropWhile_suffix _).mem (List.mem_reverse.mp name))
    exact List.mem_of_mem_drop (List.mem_reverse.mp kept)

theorem join_subset (base name : Bytes) : ∀ c ∈ join base name, c ∈ base ∨ c = 92 ∨ c ∈ name := by
  intro c member
  unfold join at member
  split at member <;> split at member <;>
    simp only [List.mem_append, List.mem_cons] at member <;> tauto

end WindowsPath
