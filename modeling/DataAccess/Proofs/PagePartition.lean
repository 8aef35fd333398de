import DataAccess.Page
import Mathlib.Algebra.Order.Floor.Div
import Mathlib.Data.UInt

/-!
Pages as a partition of the rows. Where a page starts, how many pages there are and whether another
one follows are computed apart, in words of three lengths. What joins them is one equivalence: the
number of pages is above `n` exactly where the rows of `n` full pages are fewer than all rows.
-/
namespace DataAccess

variable {size : UInt32} {total : UInt64} {page offset : Nat}

theorem toNat_pos_of_ne_zero (hsize : size ≠ 0) : 0 < size.toNat :=
  UInt32.lt_iff_toNat_lt.1 (UInt32.pos_iff_ne_zero.2 hsize)

theorem ceilDiv_eq_div_add {n k : Nat} (hk : 0 < k) :
    n ⌈/⌉ k = n / k + if n % k = 0 then 0 else 1 := by
  have hparts := Nat.div_add_mod' n k
  have hbelow := Nat.mod_lt n hk
  rw [Nat.ceilDiv_eq_add_pred_div]
  split_ifs with h
  · rw [Nat.add_zero]
    apply Nat.div_eq_of_lt_le
    · omega
    · rw [Nat.succ_mul]
      omega
  · apply Nat.div_eq_of_lt_le
    · rw [Nat.succ_mul]
      omega
    · rw [Nat.succ_mul, Nat.succ_mul]
      omega

/-- A remainder adds one page to a quotient that is at most half of a word, as pages of a single row
leave no remainder. -/
theorem pages_lt_word (total : UInt64) (hsize : 0 < size.toNat) :
    (total.toNat / size.toNat + if total.toNat % size.toNat = 0 then 0 else 1) < 2 ^ 64 := by
  have hword := total.toNat_lt
  split_ifs with h
  · exact (Nat.div_le_self _ _).trans_lt hword
  · have htwo : 2 ≤ size.toNat := by
      have hbelow := Nat.mod_lt total.toNat hsize
      omega
    have hhalf : total.toNat / size.toNat ≤ total.toNat / 2 := Nat.div_le_div_left htwo (by decide)
    omega

theorem toNat_pageTotal (hsize : size ≠ 0) (total : UInt64) :
    (pageTotal total size).toNat = total.toNat ⌈/⌉ size.toNat := by
  have hpos := toNat_pos_of_ne_zero hsize
  have hexact : total % size.toUInt64 = 0 ↔ total.toNat % size.toNat = 0 := by
    rw [← UInt64.toNat_inj, UInt64.toNat_mod, UInt64.toNat_zero, UInt32.toNat_toUInt64]
  have hlast : (if total % size.toUInt64 = 0 then (0 : UInt64) else 1).toNat =
      if total.toNat % size.toNat = 0 then 0 else 1 := by
    simp only [hexact]
    split_ifs <;> rfl
  rw [ceilDiv_eq_div_add hpos, pageTotal, if_neg hsize, UInt64.toNat_add, UInt64.toNat_div,
    UInt32.toNat_toUInt64, hlast, Nat.mod_eq_of_lt (pages_lt_word total hpos)]

theorem lt_pageTotal_iff (hsize : size ≠ 0) {n : Nat} :
    n < (pageTotal total size).toNat ↔ n * size.toNat < total.toNat := by
  rw [toNat_pageTotal hsize, Nat.mul_comm]
  exact lt_iff_lt_of_le_iff_le (ceilDiv_le_iff_le_mul (toNat_pos_of_ne_zero hsize))

def OnPage (size : UInt32) (page offset : Nat) : Prop :=
  (page - 1) * size.toNat ≤ offset ∧ offset < (page - 1) * size.toNat + size.toNat

theorem onPage_iff (hsize : size ≠ 0) : OnPage size page offset ↔ offset / size.toNat = page - 1 := by
  have hpos := toNat_pos_of_ne_zero hsize
  unfold OnPage
  rw [Nat.div_eq_iff hpos]
  omega

theorem existsUnique_onPage (hsize : size ≠ 0) (offset : Nat) :
    ∃! page, 1 ≤ page ∧ OnPage size page offset := by
  refine ⟨offset / size.toNat + 1, ⟨Nat.le_add_left 1 _, (onPage_iff hsize).2 rfl⟩, ?_⟩
  rintro page ⟨hpage, hon⟩
  rw [(onPage_iff hsize).1 hon, Nat.sub_add_cancel hpage]

/-- A page that has any row has the one that it starts with. -/
theorem exists_onPage_iff (hsize : size ≠ 0) (hpage : 1 ≤ page) :
    (∃ offset < total.toNat, OnPage size page offset) ↔ page ≤ (pageTotal total size).toNat := by
  have hstart : page ≤ (pageTotal total size).toNat ↔ (page - 1) * size.toNat < total.toNat := by
    rw [← lt_pageTotal_iff hsize]
    omega
  rw [hstart]
  constructor
  · rintro ⟨offset, htotal, hfrom, -⟩
    exact hfrom.trans_lt htotal
  · intro h
    exact ⟨_, h, le_rfl, Nat.lt_add_of_pos_right (toNat_pos_of_ne_zero hsize)⟩

namespace PageRequest

theorem toNat_page (r : PageRequest) : r.page.toNat = max r.currentPage.toNat 1 :=
  UInt32.toNat_max _ _

theorem one_le_page (r : PageRequest) : 1 ≤ r.page.toNat := by
  rw [toNat_page]
  exact le_max_right _ _

/-- The start of the page is computed without overflow: each step has its value among the integers. -/
structure StartFits (r : PageRequest) : Prop where
  pagesBefore : (Int64.ofNat r.page.toNat - 1).toInt = (r.page.toNat : Int) - 1
  size : (Int64.ofNat r.pageSize.toNat).toInt = r.pageSize.toNat
  start : r.pageStart.toInt = ((r.page.toNat : Int) - 1) * r.pageSize.toNat

theorem pagesBefore_eq (r : PageRequest) :
    Int64.ofNat r.page.toNat - 1 = Int64.ofNat (r.page.toNat - 1) :=
  (Int64.ofNat_sub _ _ r.one_le_page).symm

theorem pageStart_eq (r : PageRequest) :
    r.pageStart = Int64.ofNat ((r.page.toNat - 1) * r.pageSize.toNat) := by
  rw [pageStart, pagesBefore_eq, Int64.ofNat_mul]

theorem cast_pagesBefore (r : PageRequest) : ((r.page.toNat - 1 : Nat) : Int) = r.page.toNat - 1 :=
  Nat.cast_sub r.one_le_page

/-- Only the product can overflow. -/
theorem startFits_iff (r : PageRequest) :
    r.StartFits ↔ (r.page.toNat - 1) * r.pageSize.toNat < 2 ^ 63 := by
  have hpage := r.page.toNat_lt
  have hsize := r.pageSize.toNat_lt
  constructor
  · intro h
    have hstart := h.start
    rw [← cast_pagesBefore, ← Nat.cast_mul] at hstart
    have hword := r.pageStart.toInt_lt
    omega
  · intro h
    constructor
    · rw [pagesBefore_eq, Int64.toInt_ofNat_of_lt (by omega), cast_pagesBefore]
    · exact Int64.toInt_ofNat_of_lt (by omega)
    · rw [pageStart_eq, Int64.toInt_ofNat_of_lt h, Nat.cast_mul, cast_pagesBefore]

end PageRequest

theorem PageResult.hasNext_make_iff {α : Type} (hsize : size ≠ 0) (rows : List α) {r : PageRequest}
    (hr : r.pageSize = size) :
    (make rows r total).hasNext = true ↔ max r.currentPage.toNat 1 * size.toNat < total.toNat := by
  rw [← lt_pageTotal_iff hsize, ← r.toNat_page, ← hr]
  exact decide_eq_true_iff.trans UInt64.lt_iff_toNat_lt

/-- The pages of a query partition its rows. Every row is on just one page; the pages from the first to
the last are those that have a row; each of these starts at a row, at an offset that is computed
without overflow; and another page follows exactly where rows are left. -/
theorem pages_partition_rows (hsize : size ≠ 0) (htotal : total.toNat ≤ 2 ^ 63 - 1) :
    (∀ offset < total.toNat, ∃! page, 1 ≤ page ∧ OnPage size page offset) ∧
    (∀ page, 1 ≤ page →
      ((∃ offset < total.toNat, OnPage size page offset) ↔ page ≤ (pageTotal total size).toNat)) ∧
    ∀ r : PageRequest, r.pageSize = size →
      (max r.currentPage.toNat 1 ≤ (pageTotal total size).toNat →
        r.StartFits ∧ r.pageStart.toInt < total.toNat) ∧
      ∀ (α : Type) (rows : List α), (PageResult.make rows r total).hasNext = true ↔
        max r.currentPage.toNat 1 * size.toNat < total.toNat := by
  refine ⟨fun offset _ => existsUnique_onPage hsize offset, fun page => exists_onPage_iff hsize,
    fun r hr => ⟨fun hpage => ?_, fun α rows => PageResult.hasNext_make_iff hsize rows hr⟩⟩
  rw [← r.toNat_page] at hpage
  have hfirst : r.page.toNat - 1 < (pageTotal total size).toNat :=
    (Nat.sub_one_lt_of_le r.one_le_page le_rfl).trans_le hpage
  rw [lt_pageTotal_iff hsize] at hfirst
  have hfits : r.StartFits := by
    rw [r.startFits_iff, hr]
    omega
  refine ⟨hfits, ?_⟩
  rw [hfits.start, hr, ← r.cast_pagesBefore, ← Nat.cast_mul]
  exact Int.ofNat_lt.2 hfirst

/-- The longest pages of the most rows that can be counted: the start of the last one is close to the
largest signed word. -/
theorem pages_partition_most_rows :
    (4294967295 : UInt32) ≠ 0 ∧ (9223372036854775807 : UInt64).toNat ≤ 2 ^ 63 - 1 ∧
      (∃! page, 1 ≤ page ∧ OnPage 4294967295 page 9223372036854775806) ∧
      (PageRequest.mk 2147483649 4294967295 .empty).StartFits ∧
      (PageResult.make ([] : List Nat) ⟨2147483648, 4294967295, .empty⟩ 9223372036854775807).hasNext =
        true := by
  have hsize : (4294967295 : UInt32) ≠ 0 := by decide
  have htotal : (9223372036854775807 : UInt64).toNat ≤ 2 ^ 63 - 1 := by decide
  obtain ⟨hrow, -, hrequest⟩ := pages_partition_rows hsize htotal
  refine ⟨hsize, htotal, hrow _ (by decide), ?_, ?_⟩
  · exact ((hrequest _ rfl).1 (by decide)).1
  · exact ((hrequest _ rfl).2 _ _).2 (by decide)

end DataAccess
