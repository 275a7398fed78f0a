import ApiRelease.Declaration.Basic
import ApiRelease.Document.Value

/-! # Declarations as documents -/
namespace ApiRelease

def Position.toValue (p : Position) : Value :=
  .table [("line", .int p.line), ("column", .int p.column), ("offset", .int p.offset)]

def Span.toValue (s : Span) : Value :=
  .table [("start", s.start.toValue), ("end", s.stop.toValue)]

def TypeParameter.toValue (p : TypeParameter) : Value :=
  .table [("name", .text p.name), ("constraint", .ofOption p.constraint),
    ("default", .ofOption p.default)]

def Parameter.toValue (p : Parameter) : Value :=
  .table [("name", .text p.name), ("type", .text p.type), ("optional", .bool p.optional),
    ("rest", .bool p.rest), ("default_value", .ofOption p.defaultValue)]

def Signature.toValue (s : Signature) : Value :=
  .table [("parameters", .list (s.parameters.map (·.toValue))), ("return_type", .text s.returnType),
    ("type_parameters", .list (s.typeParameters.map (·.toValue))),
    ("normalized", .text s.normalized)]

def Property.toValue (p : Property) : Value :=
  .table [("name", .text p.name), ("type", .text p.type), ("optional", .bool p.optional),
    ("readonly", .bool p.readonly)]

def TypeInfo.toValue (t : TypeInfo) : Value :=
  .table [("signature", .text t.signature), ("raw", .text t.raw),
    ("union_members", .texts t.unionMembers),
    ("intersection_members", .texts t.intersectionMembers),
    ("call_signatures", .list (t.callSignatures.map (·.toValue))),
    ("construct_signatures", .list (t.constructSignatures.map (·.toValue))),
    ("properties", .list (t.properties.map (·.toValue))),
    ("type_parameters", .list (t.typeParameters.map (·.toValue))),
    ("string_index_type", .ofOption t.stringIndexType),
    ("number_index_type", .ofOption t.numberIndexType)]

def Metadata.toValue (m : Metadata) : Value :=
  .table [("deprecated", .bool m.deprecated),
    ("deprecation_message", .ofOption m.deprecationMessage),
    ("default_value", .ofOption m.defaultValue), ("raw_comment", .ofOption m.rawComment)]

def optionalValue {α : Type} (toValue : α → Value) : Option α → Value
  | none => .null
  | some a => toValue a

def Facts.toFields (f : Facts) (members : Value) : Fields :=
  [("path", .text f.path), ("name", .text f.name), ("kind", .text f.kind.name),
    ("location", optionalValue Span.toValue f.location), ("parent", .ofOption f.parent),
    ("type_info", optionalValue TypeInfo.toValue f.typeInfo),
    ("modifiers", .texts f.modifiers.names), ("metadata", optionalValue Metadata.toValue f.metadata),
    ("children", members), ("extends", .texts f.extended),
    ("implements", .texts f.implemented)]

namespace Declaration

mutual

def toValue : Declaration → Value
  | ⟨facts, members⟩ => .table (facts.toFields (.table (membersToFields members)))

def membersToFields : List (Scalar × Declaration) → Fields
  | [] => []
  | (key, d) :: rest => (key, toValue d) :: membersToFields rest

end

end Declaration

end ApiRelease
