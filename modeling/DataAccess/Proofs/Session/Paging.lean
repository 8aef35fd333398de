import DataAccess.Proofs.Sql.Joining
import DataAccess.Proofs.Sql.Layout
import DataAccess.Session.Gateway

/-!
The two queries of a page. The count query puts the text of a query into parentheses, and the data query
puts a limit behind it. Where the text ends as code, both queries are the text itself with something
fixed around it, so that they succeed and fail together: `countSql_agrees_limitSql`. Where the text leaves a
literal or a comment open, the limit becomes part of that, and the query has none:
`bindPage_isLimited_iff`.
-/
namespace DataAccess

open Sql

def PageRequest.limits (r : PageRequest) : List Value :=
  [.integer r.pageStart, .integer (Int64.ofNat r.pageSize.toNat)]

theorem PageRequest.get?_dataParams (r : PageRequest) (name : String) :
    r.dataParams.get? name =
      if name = sizeParam then some (.integer (Int64.ofNat r.pageSize.toNat))
      else if name = startParam then some (.integer r.pageStart)
      else r.params.get? name := by
  unfold dataParams
  rw [Params.get?_insert, Params.get?_insert]

theorem PageRequest.lookUp_limits (r : PageRequest) :
    [startParam, sizeParam].mapM (lookUp r.dataParams) = .ok r.limits := by
  have hstart : lookUp r.dataParams startParam = .ok (.integer r.pageStart) := by
    unfold lookUp
    rw [get?_dataParams, if_neg (by decide), if_pos rfl]
  have hsize : lookUp r.dataParams sizeParam =
      .ok (.integer (Int64.ofNat r.pageSize.toNat)) := by
    unfold lookUp
    rw [get?_dataParams, if_pos rfl]
  rw [List.mapM_cons, List.mapM_cons, List.mapM_nil, hstart, hsize]
  rfl

/-- Names other than the two of the page have the values that the caller gave them. -/
theorem PageRequest.mapM_lookUp_dataParams (r : PageRequest) {names : List String}
    (hstart : startParam ∉ names) (hsize : sizeParam ∉ names) :
    names.mapM (lookUp r.dataParams) = names.mapM (lookUp r.params) := by
  induction names with
  | nil => rfl
  | cons name names ih =>
    rw [List.mem_cons, not_or] at hstart hsize
    have hname : lookUp r.dataParams name = lookUp r.params name := by
      unfold lookUp
      rw [get?_dataParams, if_neg (Ne.symm hsize.1), if_neg (Ne.symm hstart.1)]
    rw [List.mapM_cons, List.mapM_cons, hname, ih hstart.2 hsize.2]

namespace Gateway

def countHead : String := "select count(0) as total from ("

def countTail : String := ") as _t"

def limitTail : String := " limit \x7bpageStart\x7d,\x7bpageSize\x7d"

theorem countSql_eq (sql : String) : countSql sql = countHead ++ (sql ++ countTail) := by
  have hhead : "select count(0) as " ++ totalColumn ++ " from (" = countHead := by decide
  unfold countSql
  rw [hhead, String.append_assoc]
  rfl

theorem limitSql_eq (sql : String) : limitSql sql = sql ++ limitTail := by
  have htail : " limit \x7b" ++ PageRequest.startParam ++ "\x7d,\x7b" ++ PageRequest.sizeParam ++
      "\x7d" = limitTail := by decide
  rw [← htail]
  unfold limitSql
  simp only [String.append_assoc]

variable {sql text : String}

theorem parted_limitTail (text : String) : Parted text.toList limitTail.toList := by
  intro a _ b hb
  obtain rfl : ' ' = b := Option.some.inj hb
  simp [opensComment]

theorem sealed_limitTail (text : String) : Sealed text.toList limitTail.toList := by
  refine .of_head fun b hb => ?_
  obtain rfl : ' ' = b := Option.some.inj hb
  decide

theorem closes_nothing_limitTail : ∀ c ∈ limitTail.toList, c ∉ closing := by
  simp [limitTail, closing]

/-- The limit behind code becomes two placeholders. -/
theorem substituted_limitSql (hcode : Region.code.after sql.toList = .code) :
    substituted (limitSql sql) = substituted sql ++ " limit ?,?" ∧
      templateNames (limitSql sql) =
        templateNames sql ++ [PageRequest.startParam, PageRequest.sizeParam] := by
  have htext : substituted limitTail = " limit ?,?" := by decide +kernel
  have hnames : templateNames limitTail = [PageRequest.startParam, PageRequest.sizeParam] := by
    decide +kernel
  rw [limitSql_eq, ← htext, ← hnames]
  exact substituted_append hcode (parted_limitTail sql) (sealed_limitTail sql)

/-- The limit behind an open literal or comment stays as it is. -/
theorem substituted_limitSql_open (hopen : Region.code.after sql.toList ≠ .code) :
    substituted (limitSql sql) = substituted sql ++ limitTail ∧
      templateNames (limitSql sql) = templateNames sql := by
  rw [limitSql_eq]
  exact substituted_append_open hopen closes_nothing_limitTail (parted_limitTail sql)
    (sealed_limitTail sql)

/-- The text that is counted stays between its parentheses. -/
theorem substituted_countSql (hcode : Region.code.after sql.toList = .code) :
    substituted (countSql sql) = countHead ++ (substituted sql ++ countTail) ∧
      templateNames (countSql sql) = templateNames sql := by
  have hhead : substituted countHead = countHead ∧ templateNames countHead = [] :=
    substituted_of_not_mem (by decide)
  have htail : substituted countTail = countTail ∧ templateNames countTail = [] :=
    substituted_of_not_mem (by decide)
  have hparted : Parted countHead.toList (sql ++ countTail).toList := by
    intro a ha b _
    obtain rfl : '(' = a := Option.some.inj ha
    simp [opensComment]
  have hsealed : Sealed countHead.toList (sql ++ countTail).toList := .of_not_mem (by decide)
  have hparted' : Parted sql.toList countTail.toList := by
    intro a _ b hb
    obtain rfl : ')' = b := Option.some.inj hb
    simp [opensComment]
  have hsealed' : Sealed sql.toList countTail.toList := by
    refine .of_head fun b hb => ?_
    obtain rfl : ')' = b := Option.some.inj hb
    decide
  obtain ⟨htext, hnames⟩ := substituted_append (by decide +kernel) hparted hsealed
  obtain ⟨htext', hnames'⟩ := substituted_append hcode hparted' hsealed'
  rw [countSql_eq, htext, hnames, htext', hnames', hhead.1, hhead.2, htail.1, htail.2]
  exact ⟨rfl, List.append_nil _⟩

theorem countPlaceholders_limited (hcode : Region.code.after text.toList = .code) :
    countPlaceholders (text ++ " limit ?,?") = (countPlaceholders text + 2) % UInt64.size := by
  have hjoins : Joins text.toList " limit ?,?".toList := joins_of_head (by simp)
  have hmarks : marksOf " limit ?,?".toList =
      List.replicate 7 none ++ [some none, none, some none] := by decide +kernel
  rw [countPlaceholders_eq, countPlaceholders_eq, String.toList_append, marksOf_append hcode hjoins,
    countFrom_append, hmarks, countFrom_append,
    countFrom_unmarked fun m hm => List.eq_of_mem_replicate hm]
  exact Nat.mod_add_mod _ _ _

theorem countPlaceholders_counted (hcode : Region.code.after text.toList = .code) :
    countPlaceholders (countHead ++ (text ++ countTail)) = countPlaceholders text := by
  have hhead : IsPlain countHead := by decide
  have htail : IsPlain countTail := by decide
  have hjoins : Joins text.toList countTail.toList := joins_of_head (by simp [countTail])
  rw [countPlaceholders_plain hhead, countPlaceholders_eq, countPlaceholders_eq,
    String.toList_append, marksOf_append hcode hjoins, countFrom_append,
    countFrom_unmarked htail.unmarked]

theorem bindTemplate_countSql (hcode : Region.code.after sql.toList = .code) (params : Params) :
    bindTemplate (countSql sql) params =
      (templateNames sql).mapM (lookUp params) >>=
        Bound.make (countHead ++ (substituted sql ++ countTail)) := by
  rw [bindTemplate_eq, (substituted_countSql hcode).1, (substituted_countSql hcode).2]

theorem bindTemplate_limitSql (hcode : Region.code.after sql.toList = .code)
    (request : PageRequest) :
    bindTemplate (limitSql sql) request.dataParams =
      (templateNames sql).mapM (lookUp request.dataParams) >>= fun values =>
        Bound.make (substituted sql ++ " limit ?,?") (values ++ request.limits) := by
  rw [bindTemplate_eq, (substituted_limitSql hcode).1, (substituted_limitSql hcode).2,
    List.mapM_append, request.lookUp_limits]
  generalize Bound.make (substituted sql ++ " limit ?,?") = make
  cases (templateNames sql).mapM (lookUp request.dataParams) with
  | error e => rfl
  | ok values => rfl

/-- Where the text of a query ends as code and names neither number of the page, the count query and the
data query are bound alike, whatever the parameters: both or none are, and for the same missing name.
The text has a length that a machine word holds. -/
theorem countSql_agrees_limitSql (hlen : sql.length < UInt64.size)
    (hcode : Region.code.after sql.toList = .code) (hstart : PageRequest.startParam ∉ templateNames sql)
    (hsize : PageRequest.sizeParam ∉ templateNames sql) (request : PageRequest) :
    ((∃ count, bindTemplate (countSql sql) request.params = .ok count) ↔
        ∃ data, bindTemplate (limitSql sql) request.dataParams = .ok data) ∧
      (∀ name, bindTemplate (countSql sql) request.params = .error (.missingParameter name) ↔
        bindTemplate (limitSql sql) request.dataParams = .error (.missingParameter name)) ∧
      ∀ count data, bindTemplate (countSql sql) request.params = .ok count →
        bindTemplate (limitSql sql) request.dataParams = .ok data →
        ∃ text, count.sql = "select count(0) as total from (" ++ text ++ ") as _t" ∧
          data.sql = text ++ " limit ?,?" ∧
          data.params = count.params ++
            [.integer request.pageStart, .integer (Int64.ofNat request.pageSize.toNat)] := by
  rw [bindTemplate_countSql hcode, bindTemplate_limitSql hcode,
    request.mapM_lookUp_dataParams hstart hsize]
  have hcode' : Region.code.after (substituted sql).toList = .code := by
    rw [after_substituted, hcode]
  have hnames := two_mul_length_templateNames_le sql
  generalize substituted sql = text at hcode'
  cases hvalues : (templateNames sql).mapM (lookUp request.params) with
  | error e =>
    rw [error_bind, error_bind]
    exact ⟨by simp, fun _ => Iff.rfl, fun _ _ h => by cases h⟩
  | ok values =>
    rw [ok_bind, ok_bind]
    have hlength : (values ++ request.limits).length = values.length + 2 := List.length_append
    -- there is room for the two numbers of the limit, so that the count does not wrap around
    have hroom : values.length + 2 < UInt64.size := by
      have hlookups := (forall₂_of_mapM_ok hvalues).length_eq
      change _ < 18446744073709551616 at hlen ⊢
      omega
    have hword := countPlaceholders_lt text
    have hdata : countPlaceholders (text ++ " limit ?,?") = (values ++ request.limits).length ↔
        countPlaceholders (countHead ++ (text ++ countTail)) = values.length := by
      rw [countPlaceholders_limited hcode', countPlaceholders_counted hcode', hlength]
      change _ < 18446744073709551616 at hroom hword
      change _ % 18446744073709551616 = _ ↔ _
      omega
    refine ⟨?_, fun name => ?_, fun count data hcount hdata => ⟨text, ?_⟩⟩
    · rw [Bound.exists_make_iff, Bound.exists_make_iff, hdata]
    · exact iff_of_false (Bound.make_ne_missing _ _ _) (Bound.make_ne_missing _ _ _)
    · obtain ⟨hsql, hparams⟩ := Bound.make_ok hcount
      obtain ⟨hsql', hparams'⟩ := Bound.make_ok hdata
      refine ⟨?_, hsql', ?_⟩
      · rw [hsql, String.append_assoc]
        rfl
      · rw [hparams', hparams]
        rfl

/-- Values that the caller has under the names of the page count for nothing. -/
theorem countSql_agrees_limitSql_tagged :
    ∃ count data,
      bindTemplate (countSql "select \x7btag\x7d as tag")
        (Params.ofList [("tag", .text "a"), ("pageStart", .integer 7)]) = .ok count ∧
      bindTemplate (limitSql "select \x7btag\x7d as tag")
        (PageRequest.mk 3 10
          (Params.ofList [("tag", .text "a"), ("pageStart", .integer 7)])).dataParams = .ok data ∧
      data.params = [.text "a", .integer 20, .integer 10] := by
  have hcode : Region.code.after "select \x7btag\x7d as tag".toList = .code := by decide +kernel
  have hagrees := countSql_agrees_limitSql (by decide +kernel) hcode (by decide +kernel) (by decide +kernel)
    ⟨3, 10, Params.ofList [("tag", .text "a"), ("pageStart", .integer 7)]⟩
  have hcount : bindTemplate (countSql "select \x7btag\x7d as tag")
      (Params.ofList [("tag", .text "a"), ("pageStart", .integer 7)]) =
      .ok ⟨"select count(0) as total from (select ? as tag) as _t", [.text "a"],
        by decide +kernel⟩ := by rfl
  obtain ⟨hok, -, htext⟩ := hagrees
  obtain ⟨data, hdata⟩ := hok.1 ⟨_, hcount⟩
  obtain ⟨text, -, -, hparams⟩ := htext _ _ hcount hdata
  exact ⟨_, data, hcount, hdata, hparams⟩

/-- The query ends in a live limit, which binds the start and the size of the page. -/
structure IsLimited (b : Bound) (request : PageRequest) : Prop where
  live : "limit ?,?".toList.map (·, true) <:+ scan b.sql.toList
  params : [.integer request.pageStart, .integer (Int64.ofNat request.pageSize.toNat)] <:+ b.params

theorem data_of_bindPage {counting : String} {request : PageRequest} {count data : Bound}
    (h : bindPage sql counting request = .ok (count, data)) :
    bindTemplate (limitSql sql) request.dataParams = .ok data := by
  unfold bindPage at h
  obtain ⟨-, -, h⟩ := exists_of_bind_ok h
  obtain ⟨count', -, h⟩ := exists_of_bind_ok h
  obtain ⟨data', hdata, h⟩ := exists_of_bind_ok h
  cases h
  exact hdata

theorem isLimited_of_code {request : PageRequest} {data : Bound}
    (hcode : Region.code.after sql.toList = .code)
    (h : bindTemplate (limitSql sql) request.dataParams = .ok data) : IsLimited data request := by
  rw [bindTemplate_limitSql hcode] at h
  obtain ⟨values, -, hmake⟩ := exists_of_bind_ok h
  obtain ⟨hsql, hparams⟩ := Bound.make_ok hmake
  have hcode' : Region.code.after (substituted sql).toList = .code := by
    rw [after_substituted, hcode]
  have hparted : Parted (substituted sql).toList " limit ?,?".toList :=
    (joins_of_head (by simp)).parted
  constructor
  · rw [hsql, scan, String.toList_append, Region.scan_append _ hparted, hcode']
    refine List.IsSuffix.trans ?_ (List.suffix_append _ _)
    decide +kernel
  · rw [hparams]
    exact List.suffix_append _ _

/-- The limit behind a literal or a comment that is left open is no code. -/
theorem dead_limit_of_open {request : PageRequest} {data : Bound}
    (hopen : Region.code.after sql.toList ≠ .code)
    (h : bindTemplate (limitSql sql) request.dataParams = .ok data) :
    data.sql = substituted sql ++ limitTail ∧
      limitTail.toList.map (·, false) <:+ scan data.sql.toList := by
  rw [bindTemplate_eq, (substituted_limitSql_open hopen).1] at h
  obtain ⟨values, -, hmake⟩ := exists_of_bind_ok h
  obtain ⟨hsql, -⟩ := Bound.make_ok hmake
  have hoccurs : (Region.code.after sql.toList).Occurs := Region.Occurs.after (r := .code) trivial _
  refine ⟨hsql, ?_⟩
  rw [hsql, scan, String.toList_append, Region.scan_append _ (parted_limitTail _),
    after_substituted, Region.scan_open hoccurs hopen closes_nothing_limitTail]
  exact List.suffix_append _ _

/-- A page is limited exactly where the text of its query ends as code. Behind a literal or a comment
that is left open the limit is part of that, and its names stay as they are. -/
theorem bindPage_isLimited_iff {counting : String} {request : PageRequest} {count data : Bound}
    (h : bindPage sql counting request = .ok (count, data)) :
    (IsLimited data request ↔ Region.code.after sql.toList = .code) ∧
      (Region.code.after sql.toList ≠ .code → data.sql = substituted sql ++ limitTail ∧
        limitTail.toList.map (·, false) <:+ scan data.sql.toList) := by
  have hdata := data_of_bindPage h
  refine ⟨⟨fun hlimited => ?_, fun hcode => isLimited_of_code hcode hdata⟩,
    fun hopen => dead_limit_of_open hopen hdata⟩
  by_contra hopen
  -- the last character would be live as part of the limit and not live as part of what is open
  obtain ⟨front, hlive⟩ := hlimited.live
  obtain ⟨front', hdead⟩ := (dead_limit_of_open hopen hdata).2
  have hlast := congrArg List.getLast? (hlive.trans hdead.symm)
  simp [limitTail] at hlast

/-- The second page of ten notes. -/
theorem bindPage_isLimited_notes :
    ∃ count data, bindPage "select id from notes"
        "select count(0) as total from notes" ⟨2, 10, .empty⟩ = .ok (count, data) ∧
      IsLimited data ⟨2, 10, .empty⟩ := by
  have hbind : bindPage "select id from notes" "select count(0) as total from notes"
      ⟨2, 10, .empty⟩ =
      .ok (⟨"select count(0) as total from notes", [], by decide +kernel⟩,
        ⟨"select id from notes limit ?,?", [.integer 10, .integer 10],
          by decide +kernel⟩) := by rfl
  exact ⟨_, _, hbind, (bindPage_isLimited_iff hbind).1.2 (by decide +kernel)⟩

/-- A comment at the end of a query takes its limit away. -/
theorem bindPage_commented_limit :
    ∃ count data, bindPage "select id from notes order by id -- oldest first"
        "select count(0) as total from notes" ⟨1, 1, .empty⟩ = .ok (count, data) ∧
      ¬ IsLimited data ⟨1, 1, .empty⟩ := by
  refine ⟨⟨"select count(0) as total from notes", [], by decide +kernel⟩,
    ⟨"select id from notes order by id -- oldest first limit \x7bpageStart\x7d,\x7bpageSize\x7d", [],
      by decide +kernel⟩, by rfl, fun h => ?_⟩
  exact absurd h.params (by simp)

end Gateway
end DataAccess
