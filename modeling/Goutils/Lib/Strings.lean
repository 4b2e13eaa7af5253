import Mathlib.Data.List.Infix

namespace Lib
set_option autoImplicit true

def hasPrefix (s pre : String) : Bool := pre.toList.isPrefixOf s.toList

def trimPrefix (s pre : String) : String :=
  if hasPrefix s pre then String.ofList (s.toList.drop pre.toList.length) else s

theorem hasPrefix_append (pre rest : String) : hasPrefix (pre ++ rest) pre = true := by
  rw [hasPrefix, List.isPrefixOf_iff_prefix, String.toList_append]
  exact List.prefix_append _ _

theorem trimPrefix_append (pre rest : String) : trimPrefix (pre ++ rest) pre = rest := by
  rw [trimPrefix, if_pos (hasPrefix_append pre rest), String.toList_append, List.drop_left,
    String.ofList_toList]

theorem append_trimPrefix (h : hasPrefix s pre = true) : pre ++ trimPrefix s pre = s := by
  obtain ⟨rest, hrest⟩ := List.isPrefixOf_iff_prefix.1 h
  have hs : s = pre ++ String.ofList rest := by
    apply String.toList_inj.1
    rw [String.toList_append, String.toList_ofList, hrest]
  rw [hs, trimPrefix_append]

def contains (s substr : List UInt8) : Bool := decide (substr <:+: s)

end Lib
