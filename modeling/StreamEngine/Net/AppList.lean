import StreamEngine.Library.Decimal
import StreamEngine.Library.Loop
import StreamEngine.Net.Xml

/-! The host's app list and the resolution of an app reference to an appid. -/
namespace StreamEngine.Net
open ByteString Decimal

structure AppInfo where
  id : Int
  title : Bytes
  hdrSupported : Bool
deriving DecidableEq

/-- Start of the body of the next `<App>` element at or after `pos`. The scan accepts the
same name ends as `find_start_tag`, and a start tag at the very end has no body. -/
def findAppBody (xml : Bytes) (pos : Nat) : Option Nat :=
  match findStartTagFrom (ascii "<App") pos (xml.drop pos) with
  | none => none
  | some open_ => (find xml [62] open_).map (· + 1)

def readApp (block : Bytes) : AppInfo :=
  ⟨atoi (xmlText block (ascii "ID")), xmlText block (ascii "AppTitle"),
    xmlText block (ascii "IsHdrSupported") == ascii "1"⟩

/-- One entry of `parse_app_list`. A missing end tag gives the entry the rest of the
document, and an entry without a positive id or a title is skipped. -/
def parseAppStep (xml : Bytes) : Nat × List AppInfo → (Nat × List AppInfo) ⊕ List AppInfo
  | (pos, apps) =>
    match findAppBody xml pos with
    | none => .inr apps
    | some body =>
      let close := find xml (ascii "</App>") body
      let a := readApp (substr xml body (close.getD xml.length - body))
      let apps := if 0 < a.id ∧ a.title ≠ [] then apps ++ [a] else apps
      .inl ((close.map (· + 6)).getD xml.length, apps)

def parseAppList (xml : Bytes) : List AppInfo :=
  (Loop.run (parseAppStep xml) (xml.length + 2) (0, [])).getD []

def allDigits (s : Bytes) : Bool := s != [] && s.all isDigit

def iequals (a b : Bytes) : Bool := a.map toLower == b.map toLower

/-- Appid of the first app of this title, ignoring case. -/
def matchTitle (apps : List AppInfo) (ref : Bytes) : Int :=
  match apps.find? fun a => iequals a.title ref with
  | some a => a.id
  | none => 0

def resolveAppId (apps : List AppInfo) (ref : Bytes) : Int :=
  if allDigits ref ∧ 0 < atoi ref then atoi ref else matchTitle apps ref

/-- The message of `fetch_app_list` for a reply it does not accept. -/
def noAppList : Bytes := ascii "host returned no status-200 applist response"

def fetchAppList {m : Type → Type} [Monad m] (transport : m Bytes) :
    m (Except Bytes (List AppInfo)) := do
  let xml ← transport
  if xml = [] ∨ xmlAttr xml (ascii "root") (ascii "status_code") ≠ ascii "200" then
    return .error noAppList
  else return .ok (parseAppList xml)

theorem findStartTagFrom_bounds {needle : Bytes} {pos open_ : Nat} {s : Bytes}
    (found : findStartTagFrom needle pos s = some open_) :
    pos ≤ open_ ∧ open_ < pos + s.length := by
  induction s generalizing pos with
  | nil => simp [findStartTagFrom] at found
  | cons c s ih =>
    simp only [findStartTagFrom] at found
    split at found
    · cases found
      simp
    · have bounds := ih found
      rw [List.length_cons]
      omega

theorem findAppBody_bounds {xml : Bytes} {pos body : Nat} (found : findAppBody xml pos = some body) :
    pos < body ∧ body ≤ xml.length := by
  cases start : findStartTagFrom (ascii "<App") pos (xml.drop pos) with
  | none => simp [findAppBody, start] at found
  | some open_ =>
    simp only [findAppBody, start, Option.map_eq_some_iff] at found
    obtain ⟨gt, here, rfl⟩ := found
    have after := find_bound here
    have one : ([62] : Bytes).length = 1 := rfl
    have before := findStartTagFrom_bounds start
    omega

/-- The loop over the entries is always left: an entry ends after it starts. -/
theorem parseAppList_terminates (xml : Bytes) :
    ∃ apps, Loop.run (parseAppStep xml) (xml.length + 2) (0, []) = some apps := by
  apply Loop.run_terminates (fun _ => True) (fun s => xml.length + 1 - s.1) ?_ trivial
  · simp
  · rintro ⟨pos, apps⟩ s' - continues
    refine ⟨trivial, ?_⟩
    cases start : findAppBody xml pos with
    | none => simp [parseAppStep, start] at continues
    | some body =>
      have bounds := findAppBody_bounds start
      simp only [parseAppStep, start, Sum.inl.injEq] at continues
      subst continues
      cases close : find xml (ascii "</App>") body with
      | none =>
        simp only [Option.map_none, Option.getD_none]
        omega
      | some close =>
        have after := find_bound close
        have six : (ascii "</App>").length = 6 := rfl
        simp only [Option.map_some, Option.getD_some]
        omega

end StreamEngine.Net
