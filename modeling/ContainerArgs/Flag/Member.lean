import ContainerArgs.Flag.Encode

/-!
# Descriptions of option records

An option record is described member by member: tagged values, values without a
tag, lists of extra tokens, and nested records whose members stand in place.
Fields and extra tokens are read off depth first.  Every member may be exported
or not, but only for a tagged value does it matter.
-/

namespace ContainerArgs.Flag

/-- A member of an option record. -/
inductive Member where
  | tagged (ident tag : String) (exported : Bool) (value : Value)
  | plain (ident : String) (exported : Bool := true)
  | extra (tokens : List String) (exported : Bool := true)
  | nested (members : List Member) (exported : Bool := true)

namespace Member

mutual

def fields : Member → List Field
  | .tagged ident tag exported value => [⟨ident, some tag, exported, value⟩]
  | .plain _ _ => []
  | .extra _ _ => []
  | .nested members _ => fieldsAll members

/-- The fields of several members, in order. -/
def fieldsAll : List Member → List Field
  | [] => []
  | m :: ms => m.fields ++ fieldsAll ms

end

mutual

def extras : Member → List String
  | .tagged _ _ _ _ => []
  | .plain _ _ => []
  | .extra tokens _ => tokens
  | .nested members _ => extrasAll members

/-- The extra tokens of several members, in order. -/
def extrasAll : List Member → List String
  | [] => []
  | m :: ms => m.extras ++ extrasAll ms

end

mutual

/-- The members that are not nested records, depth first. -/
def flatten : Member → List Member
  | .nested members _ => flattenAll members
  | m => [m]

/-- The members of several members that are not nested records, in order. -/
def flattenAll : List Member → List Member
  | [] => []
  | m :: ms => m.flatten ++ flattenAll ms

end

end Member

def Record.ofMembers (members : List Member) : Record :=
  ⟨Member.fieldsAll members, Member.extrasAll members⟩

end ContainerArgs.Flag
