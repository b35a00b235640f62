import QueryCode.Error

/-!
# Targets

The two libraries for which code is written, and the names by which a user asks for them.
-/

namespace QueryCode
set_option autoImplicit false

/-- A library for which code is written. -/
inductive Target where
  | activeRecord
  | sequelize
  deriving DecidableEq, Repr

namespace Target

/-- The name of the target. -/
def name : Target → Text
  | .activeRecord => "activerecord"
  | .sequelize => "sequelize"

/-- All targets, in the order in which they are written. -/
def all : List Target := [.activeRecord, .sequelize]

/-- The target that a user means. -/
def ofName? (t : Text) : Option Target :=
  let key := Text.lower (Text.trim t)
  if ["activerecord", "active_record", "active-record", "ar", "rails"].contains (String.ofList key) then
    some .activeRecord
  else if ["sequelize", "sq"].contains (String.ofList key) then some .sequelize
  else none

/-- The targets that a user means; `all` names both. -/
def listOfName? (t : Text) : Option (List Target) :=
  if Text.sameWord (Text.trim t) "all" then some all else (ofName? t).map ([·])

/-- The target that a user means, or the error that names the unknown one. -/
def ofName (t : Text) : Except Error Target :=
  match ofName? t with
  | some target => .ok target
  | none => .error (.unknownTarget t)

/-- The targets that a user means, or the error that names the unknown one. -/
def listOfName (t : Text) : Except Error (List Target) :=
  match listOfName? t with
  | some targets => .ok targets
  | none => .error (.unknownTarget t)

/-- The mark that starts a comment. -/
def commentMark : Target → Text
  | .activeRecord => "#"
  | .sequelize => "//"

/-- A comment in the target's language. -/
def comment (target : Target) (t : Text) : Text := target.commentMark ++ " " ++ t

end Target
end QueryCode
