/-
This file groups the games of a reader into pages of a fixed size. The last page may be shorter,
and an error ends its page early: it comes directly after the games read before it. Room for a whole
page is set aside before its first game is read, which a size that is too large for the address
space does not allow.
-/

import Scoresheet.Reader

namespace Scoresheet

structure Pages where
  reader : Reader
  size : Nat
  /-- An error that ended the last page. -/
  pending : Option ReadError

namespace Pages

variable [Hashable HeaderPair]

/-- What a page size of zero is answered with. -/
def invalidSizeMessage : String := "page size must be positive"

/-- The pages of a reader, unless their size is zero. -/
def ofReader? (size : Nat) (reader : Reader) : Option Pages :=
  if size = 0 then none else some ⟨reader, size, none⟩

/-- Releases the source. No more pages will be yielded. -/
def close (pages : Pages) : Pages := { pages with reader := pages.reader.close, pending := none }

/-- Reads at most the given number of games, up to an error or the end. -/
def collect : Nat → Reader → List Entry × Option ReadError × Reader
  | 0, reader => ([], none, reader)
  | count + 1, reader =>
    match reader.next with
    | (none, reader) => ([], none, reader)
    | (some (.error error), reader) => ([], some error, reader)
    | (some (.ok entry), reader) =>
      let (entries, pending, reader) := collect count reader
      (entry :: entries, pending, reader)

/-- Yields the next page, or an error, or nothing at the end. -/
def next (pages : Pages) : Option (Except ReadError (List Entry)) × Pages :=
  match pages.pending with
  | some error => (some (.error error), { pages with pending := none })
  | none =>
    match collect pages.size pages.reader with
    | ([], none, reader) => (none, { pages with reader })
    | ([], some error, reader) => (some (.error error), { pages with reader })
    | (entries, pending, reader) => (some (.ok entries), { pages with reader, pending })

/-- The number of bytes a game takes up in a page. -/
def gameBytes : Nat := 80

/-- The largest number of games that room can be set aside for, with addresses of 64 bits. -/
def largestSize : Nat := 9223372036854775807 / gameBytes

/-- What the request for a page is answered with that there can be no room for. -/
def overflowMessage : String := "capacity overflow"

/-- Yields the next page unless there can be no room for it. An error that ended the last page needs
none. -/
def next? (pages : Pages) : Option (Option (Except ReadError (List Entry)) × Pages) :=
  if pages.pending.isNone ∧ largestSize < pages.size then none else some pages.next

end Pages

end Scoresheet
