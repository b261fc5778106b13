import OttQuic.Basic
import OttQuic.Lib.CString

/-!
# JSON lists

`list_videos`, `list_continue` and `handle_admin_list` build their replies by the same loop in a buffer
of fixed size.
-/

namespace OttQuic

open CString

/-- The loop that builds a JSON list in a buffer of `size` bytes: `none` when it does not fit. -/
def buildList (size : Nat) : Bytes → List Bytes → Option Bytes
  | buf, [] => if buf.length ≥ size - 2 then none else some (buf ++ ascii "]\x7d")
  | buf, item :: items =>
    let buf := buf ++ item
    if buf.length ≥ size - 1 then none
    else buildList size (if items = [] then buf else buf ++ ascii ",") items

/-- The items with commas between them. -/
def itemsText (separator : Bytes) : List Bytes → Bytes
  | [] => []
  | item :: items => separator ++ item ++ itemsText (ascii ",") items

theorem itemsText_comma (item : Bytes) (items : List Bytes) :
    itemsText (ascii ",") (item :: items) = ascii "," ++ itemsText [] (item :: items) := by
  rw [itemsText, itemsText, List.nil_append, List.append_assoc]

/-- The loop builds the text of the items when it fits with the bracket and the brace that come after. -/
theorem buildList_itemsText {size : Nat} (hsize : 2 ≤ size) (buf : Bytes) (items : List Bytes) :
    buildList size buf items =
      if (buf ++ itemsText [] items ++ ascii "]\x7d").length ≥ size then none
      else some (buf ++ itemsText [] items ++ ascii "]\x7d") := by
  have hend : (ascii "]\x7d").length = 2 := rfl
  induction items generalizing buf with
  | nil =>
      rw [buildList, itemsText, List.append_nil, List.length_append, hend]
      have hiff : buf.length ≥ size - 2 ↔ buf.length + 2 ≥ size := by omega
      simp only [hiff]
  | cons item items ih =>
      rw [buildList, itemsText, List.nil_append]
      by_cases hfull : (buf ++ item).length ≥ size - 1
      · have hlong : (buf ++ (item ++ itemsText (ascii ",") items) ++ ascii "]\x7d").length ≥ size := by
          rw [← List.append_assoc, List.length_append, List.length_append, hend]
          omega
        rw [if_pos hfull, if_pos hlong]
      · rw [if_neg hfull]
        cases items with
        | nil => rw [if_pos rfl, ih, itemsText, itemsText, List.append_nil, List.append_nil]
        | cons next items =>
            rw [if_neg (by simp), ih, itemsText_comma]
            simp only [List.append_assoc]

end OttQuic
