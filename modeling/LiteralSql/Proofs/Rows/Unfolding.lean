import LiteralSql.Rows.Stream

/-! The loop that hands out the rows of a body.

A turn hands out a row that waits, else the error that is to be reported, else it
takes the next chunk. What all turns together hand out are the items of the body.
-/

set_option autoImplicit false

namespace LiteralSql

namespace DecodeState

inductive Reads : DecodeState → RowItems → Prop
  | ended {state : DecodeState} (turned : state.turn = .ended) : Reads state []
  | again {state next : DecodeState} {items : RowItems} (turned : state.turn = .again next)
      (rest : Reads next items) : Reads state items
  | item {state next : DecodeState} {item : Except ClientError Row} {items : RowItems}
      (turned : state.turn = .item item next) (rest : Reads next items) : Reads state (item :: items)

variable {body : Body} {scanner : RowScanner} {error : Option ClientError} {done : Bool}

theorem Reads.unique {state : DecodeState} {items others : RowItems} (reads : Reads state items)
    (again : Reads state others) : items = others := by
  induction reads generalizing others with
  | ended turned =>
    cases again with
    | ended other => rfl
    | again other | item other => cases turned.symm.trans other
  | again turned rest ih =>
    cases again with
    | again other rest =>
      cases turned.symm.trans other
      exact ih rest
    | ended other | item other => cases turned.symm.trans other
  | item turned rest ih =>
    cases again with
    | item other rest =>
      cases turned.symm.trans other
      rw [ih rest]
    | ended other | again other => cases turned.symm.trans other

theorem Reads.ready {items : RowItems} (rest : Reads ⟨body, { scanner with ready := [] }, error, done⟩ items) :
    Reads ⟨body, scanner, error, done⟩ (scanner.ready.map .ok ++ items) := by
  obtain ⟨position, capture, member, ready⟩ := scanner
  induction ready with
  | nil => exact rest
  | cons row others ih => exact .item rfl (ih rest)

theorem Reads.finished (body : Body) {scanner : RowScanner} (none : scanner.ready = []) (error : Option ClientError) :
    Reads ⟨body, scanner, error, true⟩ (error.toList.map .error) := by
  obtain ⟨position, capture, member, ready⟩ := scanner
  subst none
  cases error with
  | none => exact .ended rfl
  | some error => exact .item rfl (.ended rfl)

theorem reads_items (scanner : RowScanner) (body : Body) : Reads ⟨body, scanner, none, false⟩ (scanner.items body) := by
  induction body generalizing scanner with
  | nil =>
    apply Reads.ready
    apply Reads.again rfl
    have last : Reads ⟨[], { scanner with ready := [] }, scanner.finish.map .decode, true⟩ _ := .finished [] rfl _
    change Reads ⟨[], { scanner with ready := [] }, scanner.finish.map .decode, true⟩ _
    cases finish : scanner.finish <;> rwa [finish] at last
  | cons chunk rest ih =>
    cases chunk with
    | error error =>
      apply Reads.ready
      apply Reads.again rfl
      exact .finished rest rfl (some error)
    | ok chunk =>
      -- The chunk is fed once the rows of the chunks before it are handed out.
      have turned : turn ⟨.ok chunk :: rest, scanner.drain.2, none, false⟩ =
        .again (advance ⟨.ok chunk :: rest, scanner.drain.2, none, false⟩) := rfl
      rw [advance] at turned
      rw [RowScanner.items]
      cases fed : scanner.drain.2.feed chunk with
      | mk next error =>
        simp only [fed] at turned
        cases error with
        | none => exact .ready (.again turned (ih next))
        | some error =>
          dsimp only
          rw [List.append_assoc]
          exact .ready (.again turned (.ready (.finished rest rfl (some (.decode error)))))

/-- The loop comes to an end, and what it has handed out by then are the items. -/
theorem reads_iff (body : Body) (items : RowItems) :
    Reads (start body) items ↔ (RowStream.ofBody body).items = items := by
  constructor
  · intro reads
    exact (reads_items {} body).unique reads
  · rintro rfl
    exact reads_items {} body

end DecodeState

end LiteralSql
