import ApiRelease.Vocabulary

/-! # Kinds of declarations and their modifiers -/
namespace ApiRelease

inductive NodeKind where
  | callSignature
  | classDecl
  | constructSignature
  | enumDecl
  | enumMember
  | function
  | getter
  | indexSignature
  | interface
  | method
  | namespaceDecl
  | parameter
  | property
  | setter
  | typeAlias
  | typeParameter
  | variableDecl
  deriving DecidableEq

namespace NodeKind

def name : NodeKind → String
  | .callSignature => "call-signature"
  | .classDecl => "class"
  | .constructSignature => "construct-signature"
  | .enumDecl => "enum"
  | .enumMember => "enum-member"
  | .function => "function"
  | .getter => "getter"
  | .indexSignature => "index-signature"
  | .interface => "interface"
  | .method => "method"
  | .namespaceDecl => "namespace"
  | .parameter => "parameter"
  | .property => "property"
  | .setter => "setter"
  | .typeAlias => "type-alias"
  | .typeParameter => "type-parameter"
  | .variableDecl => "variable"

instance : Vocabulary NodeKind where
  all := [.callSignature, .classDecl, .constructSignature, .enumDecl, .enumMember, .function, .getter,
    .indexSignature, .interface, .method, .namespaceDecl, .parameter, .property, .setter, .typeAlias,
    .typeParameter, .variableDecl]
  name := name
  find_name := by intro a; cases a <;> decide

/-- Kinds whose members are called with arguments. -/
def isCallable : NodeKind → Bool
  | .function | .method | .callSignature | .constructSignature | .classDecl => true
  | _ => false

/-- Kinds whose members everyone who implements them has to provide. -/
def isContract : NodeKind → Bool
  | .interface | .typeAlias => true
  | _ => false

end NodeKind

inductive Modifier where
  | abstract
  | async
  | const
  | declare
  | defaultExport
  | exported
  | optional
  | privateAccess
  | protectedAccess
  | publicAccess
  | readonly
  | static
  deriving DecidableEq

namespace Modifier

def name : Modifier → String
  | .abstract => "abstract"
  | .async => "async"
  | .const => "const"
  | .declare => "declare"
  | .defaultExport => "default-export"
  | .exported => "exported"
  | .optional => "optional"
  | .privateAccess => "private"
  | .protectedAccess => "protected"
  | .publicAccess => "public"
  | .readonly => "readonly"
  | .static => "static"

instance : Vocabulary Modifier where
  all := [.abstract, .async, .const, .declare, .defaultExport, .exported, .optional, .privateAccess,
    .protectedAccess, .publicAccess, .readonly, .static]
  name := name
  find_name := by intro a; cases a <;> decide

end Modifier

end ApiRelease
