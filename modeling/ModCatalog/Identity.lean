/-!
# Identities

How mods are told apart.  A mod is listed on a platform under a project; its identity is strong if
the listing is known, and weak if only the mod id is.  A weak identity matches every identity with
its mod id, while two strong ones match only on the same listing: listings may share an id that
people chose.
-/

namespace ModCatalog

/-- A file of a project on a platform. -/
structure PlatformLink where
  platform : String
  projectId : Nat
  fileId : Nat
deriving DecidableEq, Repr

namespace PlatformLink

/-- Whether two links name the same project, whatever the file. -/
def sameProject (a b : PlatformLink) : Bool := a.platform = b.platform && a.projectId = b.projectId

def text (link : PlatformLink) : String :=
  link.platform ++ ":" ++ toString link.projectId ++ "/" ++ toString link.fileId

end PlatformLink

/-- A mod id, with a listing if one is known. -/
inductive ModIdentity
  | strong (modId : String) (link : PlatformLink)
  | weak (modId : String)
deriving DecidableEq, Repr

namespace ModIdentity

/-- The identity of a mod; project zero stands for an unknown listing. -/
def ofLink (modId : String) : Option PlatformLink → ModIdentity
  | some link => if link.projectId = 0 then .weak modId else .strong modId link
  | none => .weak modId

def modId : ModIdentity → String
  | .strong modId _ => modId
  | .weak modId => modId

def link? : ModIdentity → Option PlatformLink
  | .strong _ link => some link
  | .weak _ => none

def isStrong (identity : ModIdentity) : Bool := identity.link?.isSome

/-- Whether two identities can be the same mod. -/
def isMatch (a b : ModIdentity) : Bool :=
  a.modId = b.modId &&
    match a.link?, b.link? with
    | some x, some y => x.sameProject y
    | _, _ => true

/-- The identity of two that match: a listing is kept if either has one, the first one's if both
have. -/
def merge : ModIdentity → ModIdentity → ModIdentity
  | .strong modId link, _ => .strong modId link
  | .weak modId, .strong _ link => .strong modId link
  | .weak modId, .weak _ => .weak modId

def text : ModIdentity → String
  | .strong modId link => modId ++ "@" ++ link.text
  | .weak modId => modId

theorem isMatch_comm (a b : ModIdentity) : a.isMatch b = b.isMatch a := by
  rw [Bool.eq_iff_iff]
  cases a <;> cases b <;> grind [isMatch, link?, modId, PlatformLink.sameProject]

end ModIdentity

end ModCatalog
