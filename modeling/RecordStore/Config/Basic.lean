/-!
# Configuration of a store

The address of the database, the size of the connection pool and the limits on page sizes. Settings
are made in any order and then built into a configuration with limits that fit each other: all are
at least 1 and the default page size is not above the largest.
-/

namespace RecordStore

/-- The configuration of a store. -/
structure StoreConfig where
  databaseUrl : String
  maxConnections : UInt32
  /-- The page size of a request that asks for none. -/
  pageLimitDefault : Int64
  /-- The largest page size that a request may ask for. -/
  pageLimitMax : Int64
deriving DecidableEq

/-- What has been set for a configuration. -/
structure ConfigSettings where
  databaseUrl : String
  maxConnections : UInt32 := 10
  pageLimitDefault : Int64 := 30
  pageLimitMax : Int64 := 100
deriving DecidableEq

/-- The configuration of settings, with every limit raised to at least 1 and the default page size
held to the largest. -/
def ConfigSettings.build (s : ConfigSettings) : StoreConfig :=
  let pageLimitMax := max s.pageLimitMax 1
  { databaseUrl := s.databaseUrl
    maxConnections := max s.maxConnections 1
    pageLimitDefault := min (max s.pageLimitDefault 1) pageLimitMax
    pageLimitMax }

end RecordStore
