import Mathlib.Data.List.Basic

/-! # Role-based access control

    The rules of a role and what they grant, as the RBAC authorizer of Kubernetes decides
    it.  Rules only ever add to what a role grants. -/

namespace Rbac

/-- What a request asks for.  A subresource is named after its resource and a slash. -/
structure Attributes where
  verb : String
  apiGroup : String
  resource : String
  subresource : String := ""

structure PolicyRule where
  apiGroups : List String
  resources : List String
  verbs : List String

/-- A value is listed, or everything is. -/
def listed (xs : List String) (x : String) : Bool := xs.any fun y => y = "*" || y = x

namespace PolicyRule

variable (rule : PolicyRule) (r : Attributes)

/-- A subresource is listed with its resource, or for all resources. -/
def allowsResource : Bool :=
  if r.subresource = "" then listed rule.resources r.resource
  else listed rule.resources (r.resource ++ "/" ++ r.subresource) ||
    rule.resources.contains ("*/" ++ r.subresource)

def allows : Bool :=
  listed rule.verbs r.verb && listed rule.apiGroups r.apiGroup && rule.allowsResource r

end PolicyRule

/-- The rules allow the request. -/
def allows (rules : List PolicyRule) (r : Attributes) : Bool := rules.any fun rule => rule.allows r

end Rbac
