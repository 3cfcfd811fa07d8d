/-! Drivers of databases. Each kind of database has some, of which not all are there.
Beside its drivers a kind has other names, of types and functions: whoever asks for one of
them in the place of a driver finds something, but no driver. -/

namespace Choreography

/-- What is known of a driver. -/
inductive Driver where
  /-- It can be worked with. -/
  | usable
  /-- It cannot wait. -/
  | blocking (name : String)
  /-- It is not there. -/
  | missing (name : String)
  /-- Its name is the name of something else. -/
  | other

namespace Driver

/-- The drivers of kinds of databases. What stands first is taken when none is named. -/
def known : List (String × List (String × Driver)) :=
  [("sqlite",
     [("base", .blocking "pysqlite"), ("pysqlite", .blocking "pysqlite"), ("aiosqlite", .usable),
      ("pysqlcipher", .missing "pysqlcipher3")]),
   ("postgresql",
     [("base", .missing "psycopg"), ("asyncpg", .usable), ("psycopg", .missing "psycopg"),
      ("psycopg_async", .missing "psycopg"), ("psycopg2", .missing "psycopg2"),
      ("psycopg2cffi", .missing "psycopg2cffi"), ("pg8000", .missing "pg8000")]),
   ("mysql", mysql), ("mariadb", mysql ++ [("__init__", .missing "MySQLdb")]),
   ("oracle",
     [("base", .missing "oracledb"), ("oracledb", .missing "oracledb"),
      ("oracledb_async", .missing "oracledb"), ("cx_oracle", .missing "cx_Oracle")]),
   ("mssql",
     [("base", .missing "pyodbc"), ("pyodbc", .missing "pyodbc"), ("aioodbc", .missing "aioodbc"),
      ("mssqlpython", .missing "mssql_python"), ("pymssql", .missing "pymssql")])]
where
  mysql : List (String × Driver) :=
    [("base", .missing "MySQLdb"), ("mysqldb", .missing "MySQLdb"), ("pymysql", .missing "pymysql"),
     ("aiomysql", .missing "aiomysql"), ("asyncmy", .missing "asyncmy"),
     ("cymysql", .missing "cymysql"), ("mariadbconnector", .missing "mariadb"),
     ("mysqlconnector", .missing "mysql"), ("pyodbc", .missing "pyodbc")]

/-- Names that everything has. -/
def innate : List String :=
  ["__all__", "__annotations__", "__builtins__", "__cached__", "__class__", "__delattr__",
   "__dict__", "__dir__", "__doc__", "__eq__", "__file__", "__format__", "__ge__",
   "__getattribute__", "__getstate__", "__gt__", "__hash__", "__init__", "__init_subclass__",
   "__le__", "__loader__", "__lt__", "__name__", "__ne__", "__new__", "__package__", "__path__",
   "__reduce__", "__reduce_ex__", "__repr__", "__setattr__", "__sizeof__", "__spec__", "__str__",
   "__subclasshook__", "dialect"]

/-- Names of kinds of databases that are not names of drivers. -/
def others : List (String × List String) :=
  [("sqlite",
     ["BLOB", "BOOLEAN", "CHAR", "DATE", "DATETIME", "DECIMAL", "FLOAT", "INTEGER", "Insert",
      "JSON", "NUMERIC", "REAL", "SMALLINT", "TEXT", "TIME", "TIMESTAMP", "VARCHAR", "dml",
      "insert", "json"]),
   ("postgresql",
     ["ARRAY", "AbstractMultiRange", "AbstractRange", "AbstractSingleRange", "All", "Any",
      "BIGINT", "BIT", "BOOLEAN", "BYTEA", "BitString", "CHAR", "CIDR", "CITEXT",
      "CreateDomainType", "CreateEnumType", "DATE", "DATEMULTIRANGE", "DATERANGE", "DOMAIN",
      "DOUBLE_PRECISION", "DropDomainType", "DropEnumType", "ENUM", "ExcludeConstraint", "FLOAT",
      "HSTORE", "INET", "INT4MULTIRANGE", "INT4RANGE", "INT8MULTIRANGE", "INT8RANGE", "INTEGER",
      "INTERVAL", "Insert", "JSON", "JSONB", "JSONPATH", "MACADDR", "MACADDR8", "MONEY",
      "ModuleType", "MultiRange", "NUMERIC", "NUMMULTIRANGE", "NUMRANGE", "NamedType", "OID",
      "REAL", "REGCLASS", "REGCONFIG", "Range", "SMALLINT", "TEXT", "TIME", "TIMESTAMP",
      "TSMULTIRANGE", "TSQUERY", "TSRANGE", "TSTZMULTIRANGE", "TSTZRANGE", "TSVECTOR", "UUID",
      "VARCHAR", "_psycopg_common", "aggregate_order_by", "array", "array_agg", "arraylib",
      "bitstring", "distinct_on", "dml", "ext", "hstore", "insert", "json", "named_types",
      "operators", "pg_catalog", "phraseto_tsquery", "plainto_tsquery", "ranges", "to_tsquery",
      "to_tsvector", "ts_headline", "types", "websearch_to_tsquery"]),
   ("mysql",
     ["BIGINT", "BINARY", "BIT", "BLOB", "BOOLEAN", "CHAR", "DATE", "DATETIME", "DECIMAL",
      "DOUBLE", "ENUM", "FLOAT", "INET4", "INET6", "INTEGER", "Insert", "JSON", "LONGBLOB",
      "LONGTEXT", "MEDIUMBLOB", "MEDIUMINT", "MEDIUMTEXT", "NCHAR", "NUMERIC", "NVARCHAR", "REAL",
      "SET", "SMALLINT", "TEXT", "TIME", "TIMESTAMP", "TINYBLOB", "TINYINT", "TINYTEXT",
      "VARBINARY", "VARCHAR", "YEAR", "_mariadb_shim", "dml", "enumerated", "expression", "insert",
      "json", "limit", "mariadb", "match", "reflection", "reserved_words", "types"]),
   ("mariadb",
     ["_mariadb_shim", "dml", "enumerated", "expression", "json", "mariadb", "provision",
      "reflection", "reserved_words", "types"]),
   ("oracle",
     ["BFILE", "BINARY_DOUBLE", "BINARY_FLOAT", "BLOB", "BOOLEAN", "CHAR", "CLOB", "DATE",
      "DOUBLE_PRECISION", "FLOAT", "INTERVAL", "JSON", "LONG", "ModuleType", "NCHAR", "NCLOB",
      "NUMBER", "NVARCHAR", "NVARCHAR2", "RAW", "REAL", "ROWID", "SparseVector", "TIMESTAMP",
      "VARCHAR", "VARCHAR2", "VECTOR", "VectorDistanceType", "VectorIndexConfig",
      "VectorIndexType", "VectorStorageFormat", "VectorStorageType", "dictionary", "json", "types",
      "vector"]),
   ("mssql",
     ["BIGINT", "BINARY", "BIT", "CHAR", "DATE", "DATETIME", "DATETIME2", "DATETIMEOFFSET",
      "DECIMAL", "DOUBLE_PRECISION", "FLOAT", "IMAGE", "INTEGER", "JSON", "MONEY", "NCHAR",
      "NTEXT", "NUMERIC", "NVARCHAR", "REAL", "ROWVERSION", "SMALLDATETIME", "SMALLINT",
      "SMALLMONEY", "SQL_VARIANT", "TEXT", "TIME", "TIMESTAMP", "TINYINT", "UNIQUEIDENTIFIER",
      "VARBINARY", "VARCHAR", "XML", "information_schema", "json", "try_cast"]),
   ("_typing",
     ["Any", "Column", "ColumnCollection", "ColumnCollectionConstraint", "Index", "Iterable",
      "Mapping", "Optional", "Union", "_OnConflictConstraintT", "_OnConflictIndexElementsT",
      "_OnConflictIndexWhereT", "_OnConflictSetT", "_OnConflictWhereT", "annotations", "roles"])]

/-- Kinds of databases that everything innate is found in. One kind borrows what it has
from another, and has nothing innate. -/
def hasInnate (database : String) : Bool :=
  database != "mariadb" && (others.lookup database).isSome

/-- What a name stands for at a kind of database, if it stands for anything. -/
def find? (database name : String) : Option Driver :=
  match (known.lookup database).bind (·.lookup name) with
  | some driver => some driver
  | none =>
    let isOther := ((others.lookup database).getD []).contains name ||
      (hasInnate database && innate.contains name)
    if isOther then some .other else none

end Driver

end Choreography
