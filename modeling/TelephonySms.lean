import TelephonySms.Machine
import TelephonySms.Pages
import TelephonySms.Regroup
import TelephonySms.Receive.Queue
import TelephonySms.Receive.Completeness
import TelephonySms.Receive.Reassembly
import TelephonySms.Receive.Isolation
import TelephonySms.Receive.Deferred
import TelephonySms.Receive.Recovery
import TelephonySms.Receive.Recovered
import TelephonySms.Receive.WapPayload
import TelephonySms.Receive.Rejected
import TelephonySms.Send.Sender
import TelephonySms.Send.Message
import TelephonySms.Send.Counters
import TelephonySms.Send.Callback
import TelephonySms.Send.Resend
import TelephonySms.Send.ResendPdu
import TelephonySms.Send.Format
import TelephonySms.Send.Report
import TelephonySms.Septet
import TelephonySms.Pdu.Submit
import TelephonySms.Pdu.Deliver
import TelephonySms.Pdu.StatusReport
import TelephonySms.Pdu.UserDataCodec
import TelephonySms.Pdu.HeaderElements
import TelephonySms.Pdu.Address
import TelephonySms.Pdu.Smsc
import TelephonySms.Pdu.SeptetPacking
import TelephonySms.Pdu.ReplyAddress
import TelephonySms.Pdu.FieldRoundTrip
import TelephonySms.Text.Count
import TelephonySms.Text.Lossless
import TelephonySms.Text.Shift
import TelephonySms.Text.Boundaries
import TelephonySms.Text.Alphabet
import TelephonySms.Send.Fit
import TelephonySms.Send.Preview
import TelephonySms.Send.HostDied
import TelephonySms.Broadcast.Modem
import TelephonySms.Broadcast.Assembly
import TelephonySms.Broadcast.Mids
import TelephonySms.Broadcast.PageSeptets
import TelephonySms.Broadcast.Expiry
import TelephonySms.Broadcast.UmtsBody
import TelephonySms.Cdma.RoundTrip
import TelephonySms.Cdma.HeaderCodings
import TelephonySms.Cdma.Order
import TelephonySms.Cdma.Cmas
import TelephonySms.Send.CdmaResend
import TelephonySms.Send.DataDelivery
import TelephonySms.Send.TextDelivery
import TelephonySms.Send.CdmaBookkeeping
import TelephonySms.Mms.Safety
import TelephonySms.Mms.Frame
import TelephonySms.Mms.HeaderFraming
import TelephonySms.Mms.PartFraming
import TelephonySms.Mms.HttpExchange
import TelephonySms.Mms.ContentTypeRoundTrip
import TelephonySms.Mms.EncodedStringRoundTrip
import TelephonySms.Mms.HostHeader
import TelephonySms.Mms.QuotedPrintable
import TelephonySms.Mms.SendConf
import TelephonySms.Mms.Attachments
import TelephonySms.Mms.SizeLimit
import TelephonySms.Receive.LockTiming
import TelephonySms.Mms.PduExchange
import TelephonySms.Mms.ReceivedAttachments
import TelephonySms.Wap.PushHandler
import TelephonySms.Ipc.Gate
import TelephonySms.Modem.Requests
import TelephonySms.Mms.DataRequest
import TelephonySms.Sim.Store
