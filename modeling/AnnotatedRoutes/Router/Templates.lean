import AnnotatedRoutes.Text.Basic

namespace AnnotatedRoutes

/-- Text for the parts of a router file. The header, the two rules and the indent stand for
themselves; the others hold fields. -/
structure RouterTemplates where
  header : Text
  controllerRule : Text
  actionRule : Text
  controllerTitle : Text
  controller : Text
  actionTitle : Text
  route : Text
  method : Text
  bind : Text
  chainIndent : Text
  aclResource : Text
  aclAllowOpen : Text
  aclRule : Text
  aclAllowClose : Text
  deriving DecidableEq

end AnnotatedRoutes
