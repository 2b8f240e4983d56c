import MeasureSql.Schema.Basic

/-!
# A retail schema

A star schema of sales with dates, products, stores and customers around it, for trying things out.

## Main definitions

* `Schema.retail`.
-/

namespace MeasureSql

namespace Schema

/-- A column with a name of its own in expressions. -/
def named (name daxName : String) (dataType : ColumnType) : Column :=
  { name, daxName := some daxName, dataType }

/-- A key column. -/
def keyColumn (name : String) : Column :=
  { name, dataType := .integer, isKey := true, isNullable := false }

/-- Sales transactions. -/
def salesTable : Table where
  name := "sales"
  daxName := some "Sales"
  columns := [(named "sale_id" "SaleId" .integer).key, named "date_key" "DateKey" .integer,
    named "product_key" "ProductKey" .integer, named "store_key" "StoreKey" .integer,
    named "customer_key" "CustomerKey" .integer, named "quantity" "Quantity" .integer,
    named "amount" "Amount" .decimal, named "discount" "Discount" .decimal]
  primaryKey := ["sale_id"]
  description := some "Sales transactions"

/-- The days. -/
def dateTable : Table where
  name := "dim_date"
  daxName := some "Date"
  columns := [keyColumn "date_key", named "date" "Date" .date, named "year" "Year" .integer,
    named "quarter" "Quarter" .integer, named "month" "Month" .integer,
    named "month_name" "MonthName" .string, named "day" "Day" .integer,
    named "day_of_week" "DayOfWeek" .integer, named "week" "Week" .integer]
  primaryKey := ["date_key"]
  description := some "Date dimension for time intelligence"

/-- The products. -/
def productTable : Table where
  name := "dim_product"
  daxName := some "Product"
  columns := [keyColumn "product_key", named "product_name" "ProductName" .string,
    named "category" "Category" .string, named "subcategory" "Subcategory" .string,
    named "brand" "Brand" .string, named "unit_price" "UnitPrice" .decimal]
  primaryKey := ["product_key"]
  description := some "Product dimension"

/-- The stores. -/
def storeTable : Table where
  name := "dim_store"
  daxName := some "Store"
  columns := [keyColumn "store_key", named "store_name" "StoreName" .string,
    named "city" "City" .string, named "state" "State" .string, named "region" "Region" .string]
  primaryKey := ["store_key"]
  description := some "Store dimension"

/-- The customers. -/
def customerTable : Table where
  name := "dim_customer"
  daxName := some "Customer"
  columns := [keyColumn "customer_key", named "customer_name" "CustomerName" .string,
    named "email" "Email" .string, named "segment" "Segment" .string]
  primaryKey := ["customer_key"]
  description := some "Customer dimension"

/-- Sales with the four tables around them. -/
def retail : Schema :=
  let tables := [salesTable, dateTable, productTable, storeTable, customerTable]
  let keys := [("dim_date", "date_key"), ("dim_product", "product_key"),
    ("dim_store", "store_key"), ("dim_customer", "customer_key")]
  keys.foldl
    (fun s (table, key) => s.addRelationship
      { fromTable := "sales", fromColumn := key, toTable := table, toColumn := key })
    (tables.foldl addTable empty)

end Schema

end MeasureSql
