import DataAccess.Error
import DataAccess.Params

/-!
Pages of a query. Pages are numbered from one and page zero is read as the first; a request
names a page and its size, a result carries the totals from which a pager is drawn.
-/
namespace DataAccess

structure PageRequest where
  currentPage : UInt32
  pageSize : UInt32
  params : Params

namespace PageRequest

def page (r : PageRequest) : UInt32 := max r.currentPage 1

def pageStart (r : PageRequest) : Int64 :=
  (Int64.ofNat r.page.toNat - 1) * Int64.ofNat r.pageSize.toNat

def validate (r : PageRequest) : Except Error Unit :=
  if r.pageSize = 0 then .error (.invalidPage .sizeZero) else .ok ()

def startParam : String := "pageStart"

def sizeParam : String := "pageSize"

/-- The parameters of the data query: those of the caller, with the page's own two replacing
any of their names. -/
def dataParams (r : PageRequest) : Params :=
  (r.params.insert startParam (.integer r.pageStart)).insert sizeParam
    (.integer (Int64.ofNat r.pageSize.toNat))

end PageRequest

/-- The number of pages for a number of rows; an exact multiple adds no page, and pages of
size zero hold nothing. -/
def pageTotal (total : UInt64) (size : UInt32) : UInt64 :=
  if size = 0 then 0
  else total / size.toUInt64 + (if total % size.toUInt64 = 0 then 0 else 1)

structure PageResult (α : Type) where
  rows : List α
  pageSize : UInt32
  currentPage : UInt32
  totalCount : UInt64
  pageTotal : UInt64

namespace PageResult

def make {α : Type} (rows : List α) (r : PageRequest) (total : UInt64) : PageResult α :=
  ⟨rows, r.pageSize, r.page, total, DataAccess.pageTotal total r.pageSize⟩

def hasNext {α : Type} (p : PageResult α) : Bool := p.currentPage.toUInt64 < p.pageTotal

end PageResult
end DataAccess
