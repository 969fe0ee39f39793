import GraphProfile.Json.Printer
import GraphProfile.Profile.Basic

set_option autoImplicit false

namespace GraphProfile
open Std

def encodeMap {κ α : Type} [Ord κ] [TransOrd κ] (key : κ → String) (value : α → Json)
    (m : ExtTreeMap κ α) : Json :=
  .ofFields (m.toList.map fun entry => (key entry.1, value entry.2))

def Bound.encode : Bound → Json
  | .int n => .int n.toInt
  | .float x => .float x

def Histogram.encode (h : Histogram) : Json :=
  .ofFields
    [("bins", .array (h.edges.map Json.float)),
     ("counts", .array (h.counts.map Json.nat)),
     ("value_counts", encodeMap id Json.nat h.frequencies)]

def encodeRanges : RangeMap → Json := encodeMap Threshold.text Json.float

def Selectivity.encode (s : Selectivity) : Json :=
  .ofFields
    [("eq", .float s.eq), ("ne", .float s.ne), ("gt", encodeRanges s.gt), ("ge", encodeRanges s.ge),
     ("lt", encodeRanges s.lt), ("le", encodeRanges s.le)]

def Record.encode (r : Record) : Json :=
  .ofFields
    [("count", .nat r.count), ("null_count", .nat r.nullCount), ("distinct_count", .nat r.distinctCount),
     ("min_value", .ofOption Bound.encode r.least), ("max_value", .ofOption Bound.encode r.greatest),
     ("histogram", r.histogram.encode), ("selectivity", r.selectivity.encode), ("type", .text r.type.name)]

def Attributes.encode (found : Attributes) : Json := encodeMap id Record.encode found

namespace Profile

def encode (p : Profile) : Json :=
  let v := p.get .vertex
  let e := p.get .edge
  .ofFields
    [("v_cnt", .nat v.total), ("e_cnt", .nat e.total),
     ("v_label_cnt", encodeMap id Json.nat v.labelCounts), ("e_label_cnt", encodeMap id Json.nat e.labelCounts),
     ("v_attr_stats", encodeMap id Attributes.encode v.attributes),
     ("e_attr_stats", encodeMap id Attributes.encode e.attributes)]

def document (p : Profile) : String := p.encode.pretty ++ "\n"

end Profile
end GraphProfile
