import PoolExchange.Event
import PoolExchange.Store

/-!
# Ledger — the store with its journal

A `Ledger` is a store together with the events that its operations reported, oldest first.
Nothing reads the journal, so an operation's effect on the store never depends on it.
-/

namespace PoolExchange

@[ext]
structure Ledger where
  store : Store
  events : List Event := []
deriving DecidableEq, Repr

namespace Ledger

/-- Replaces the store. -/
def withStore (l : Ledger) (store : Store) : Ledger := { l with store := store }

/-- Reports an event. -/
def emit (l : Ledger) (event : Event) : Ledger := { l with events := l.events ++ [event] }

def emitAll (l : Ledger) (events : List Event) : Ledger := { l with events := l.events ++ events }

end Ledger

end PoolExchange
