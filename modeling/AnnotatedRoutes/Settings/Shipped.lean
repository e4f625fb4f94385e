import AnnotatedRoutes.Settings.Basic

namespace AnnotatedRoutes

namespace RouterTemplates

def shipped : RouterTemplates where
  header :=
    "<?php\n".toList ++
      "\n".toList ++
      "// Generated by routegen from controller annotations. Do not edit by hand.".toList
  controllerRule :=
    "//==============================================================================".toList
  actionRule :=
    "//------------------------------------------------------------------------------".toList
  controllerTitle := "// \x7brouting_name\x7d (\x7burl\x7d)".toList
  controller :=
    "$app['\x7brouting_name\x7d'] = function () use ($app) \x7b\x7b\n".toList ++
      "    return new \\\x7bclass_name\x7d($app);\n".toList ++
      "\x7d\x7d;".toList
  actionTitle := "// \x7baction_id\x7d".toList
  route := "$app->match('\x7burl\x7d', '\x7baction_id\x7d')".toList
  method := "->method('\x7bmethod\x7d')".toList
  bind := "->bind('\x7bname\x7d')".toList
  chainIndent := "    ".toList
  aclResource := "$app['acl']->addResource('\x7baction_id\x7d');".toList
  aclAllowOpen :=
    "$app['acl']->allow('\x7baction_id\x7d', function ($self) use ($app) \x7b\x7b\n".toList ++
      "    return array(".toList
  aclRule := "        \x7brule\x7d,".toList
  aclAllowClose := "    );\n\x7d\x7d);".toList

/-- The templates as a section of a document. -/
def toSection (ts : RouterTemplates) : Section :=
  [("header".toList, ts.header), ("controller_rule".toList, ts.controllerRule),
   ("action_rule".toList, ts.actionRule), ("controller_title".toList, ts.controllerTitle),
   ("controller".toList, ts.controller), ("action_title".toList, ts.actionTitle),
   ("route".toList, ts.route), ("method".toList, ts.method), ("bind".toList, ts.bind),
   ("chain_indent".toList, ts.chainIndent), ("acl_resource".toList, ts.aclResource),
   ("acl_allow_open".toList, ts.aclAllowOpen), ("acl_rule".toList, ts.aclRule),
   ("acl_allow_close".toList, ts.aclAllowClose)].map fun entry =>
    (.text entry.1, .scalar (.text entry.2))

end RouterTemplates

namespace Settings

def shippedDirectories : List Text :=
  [".git".toList, ".idea".toList, ".vscode".toList, "node_modules".toList, "vendor".toList,
   "cache".toList, "var".toList]

/-- The document of the shipped settings. -/
def shippedDocument : Section :=
  [(.text "scan".toList, .mapping
      [(.text "controller_suffix".toList, .scalar (.text "Controller".toList)),
       (.text "source_ext".toList, .scalar (.text ".php".toList)),
       (.text "ignore_dirs".toList,
         .list (shippedDirectories.map fun name => .scalar (.text name)))]),
   (.text "php".toList, .mapping
      [(.text "namespace_separator".toList, .scalar (.text ['\\'])),
       (.text "constructor".toList, .scalar (.text "__construct".toList))]),
   (.text "render".toList, .mapping RouterTemplates.shipped.toSection),
   (.text "catalog".toList, .mapping [(.text "log_file".toList, .scalar (.text []))])]

def shipped : Settings where
  document := shippedDocument
  source := ⟨['\\'], "__construct".toList⟩
  scan := ⟨shippedDirectories, "Controller".toList, ".php".toList⟩
  templates := .shipped

/-- The shipped settings are those of their document. -/
theorem ofDocument_shippedDocument : ofDocument shippedDocument = .ok shipped := by rfl

end Settings

end AnnotatedRoutes
